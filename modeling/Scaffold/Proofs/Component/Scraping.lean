import Scaffold.Component.Selectors
/-!
What is scraped from a text whose attributes are known.  The scan looks for a
name, an equals sign and a double quote, so a text is told by its equals signs:
each of them stands behind the name of an attribute in double quotes, or has
something else than a double quote behind it.  From such a text the scan takes
the values of those attributes whose names end as it wants them to.
-/
namespace Scaffold.Component.Selectors

/-- What stands in front of the value of an attribute of this name. -/
def opening (name : List Char) : List Char := name ++ ['=', '"']

/-- The names that a class attribute is looked for by. -/
def classNames : List (List Char) := ["className".toList, "class".toList]

/-- The name that an id attribute is looked for by. -/
def idNames : List (List Char) := ["id".toList]

theorem classOpenings_eq : classOpenings = classNames.map opening := by decide

theorem idOpenings_eq : idOpenings = idNames.map opening := by decide

/-- Whether a name, in front of which a word character stands or not, is one of
some names from a place on that has no word character in front. -/
def endsAs (names : List (List Char)) (behindWord : Bool) : List Char → Bool
  | [] => false
  | c :: cs =>
      (!behindWord && names.contains (c :: cs)) ||
        endsAs names (Text.isWordChar c) cs

/-- The attributes in double quotes that a text shows, each with its name and
its value, by which every equals sign that a double quote follows is accounted
for. -/
inductive Shows : List Char → List (List Char × List Char) → Prop
  | quiet {cs : List Char} (noEquals : '=' ∉ cs) : Shows cs []
  | other {cs rest : List Char}
    {c : Char} {shown : List (List Char × List Char)}
      (noEquals : '=' ∉ cs) (noQuote : c ≠ '"')
      (behind : Shows (c :: rest) shown) :
      Shows (cs ++ '=' :: c :: rest) shown
  | quoted {cs name value rest : List Char}
    {shown : List (List Char × List Char)}
      (noEquals : '=' ∉ cs) (name_noEquals : '=' ∉ name)
      (value_noEquals : '=' ∉ value)
      (value_noQuote : '"' ∉ value) (behind : Shows rest shown) :
      Shows (cs ++ ' ' :: (name ++ '=' :: '"' :: (value ++ '"' :: rest)))
        ((name, value) :: shown)

namespace Shows

variable {cs ds : List Char} {shown others : List (List Char × List Char)}

theorem quiet_append (noEquals : '=' ∉ cs) (h : Shows ds shown) :
    Shows (cs ++ ds) shown := by
  cases h with
  | quiet noEquals' => exact .quiet (by simp [noEquals, noEquals'])
  | other noEquals' noQuote behind =>
      rw [← List.append_assoc]
      exact .other (by simp [noEquals, noEquals']) noQuote behind
  | quoted noEquals' name_noEquals value_noEquals value_noQuote behind =>
      rw [← List.append_assoc]
      exact .quoted (by simp [noEquals, noEquals']) name_noEquals value_noEquals
        value_noQuote behind

theorem append (h : Shows cs shown) (h' : Shows ds others) :
    Shows (cs ++ ds) (shown ++ others) := by
  induction h with
  | quiet noEquals => exact quiet_append noEquals h'
  | other noEquals noQuote _ ih =>
      rw [List.append_assoc]
      exact .other noEquals noQuote ih
  | quoted noEquals name_noEquals value_noEquals value_noQuote _ ih =>
      have hquoted :=
        quoted noEquals name_noEquals value_noEquals value_noQuote ih
      simpa using hquoted

end Shows

section

variable {names : List (List Char)} {name cs : List Char}

/-- An opening reaches beyond what has no equals sign, and what comes next is
part of its name. -/
theorem not_opening_prefix {c : Char} (noEquals : '=' ∉ cs) (hc : c ≠ '=')
    (hname : c ∉ name) (rest : List Char) :
    ¬ opening name <+: cs ++ c :: rest := by
  induction name generalizing cs with
  | nil =>
      cases cs with
      | nil => simp [opening, Ne.symm hc]
      | cons d cs =>
          have hd : '=' ≠ d := fun heq => noEquals (heq ▸ List.mem_cons_self)
          simp [opening, hd]
  | cons d name ih =>
      cases cs with
      | nil =>
          have hd : d ≠ c := fun heq => hname (heq ▸ List.mem_cons_self)
          simp [opening, hd]
      | cons e cs =>
          have hrest := ih (fun h => noEquals (List.mem_cons_of_mem e h))
            (fun h => hname (List.mem_cons_of_mem d h))
          simpa [opening] using fun _ => hrest

/-- A text up to an equals sign begins with an opening just if it is the name of
this opening, and a double quote comes next. -/
theorem opening_prefix_iff {c : Char} (noEquals : '=' ∉ cs) (hname : '=' ∉ name)
    (rest : List Char) :
    opening name <+: cs ++ '=' :: c :: rest ↔ name = cs ∧ c = '"' := by
  induction name generalizing cs with
  | nil =>
      cases cs with
      | nil => simp [opening, eq_comm]
      | cons d cs =>
          have hd : '=' ≠ d := fun heq => noEquals (heq ▸ List.mem_cons_self)
          simp [opening, hd]
  | cons d name ih =>
      cases cs with
      | nil =>
          have hd : d ≠ '=' := fun heq => hname (heq ▸ List.mem_cons_self)
          simp [opening, hd]
      | cons e cs =>
          have hrest := ih (fun h => noEquals (List.mem_cons_of_mem e h))
            (fun h => hname (List.mem_cons_of_mem d h))
          rw [opening] at hrest
          simp [opening, hrest, and_assoc]

theorem not_opening_prefix_of_noEquals (noEquals : '=' ∉ cs) :
    ¬ opening name <+: cs := by
  rintro ⟨rest, rfl⟩
  simp [opening] at noEquals

end

/-- Names that attributes can be looked for by. -/
structure AreNames (names : List (List Char)) : Prop where
  nonempty : [] ∉ names
  plain : ∀ name ∈ names, '=' ∉ name ∧ ' ' ∉ name ∧ '"' ∉ name

theorem areNames_classNames : AreNames classNames := ⟨by decide, by decide⟩

theorem areNames_idNames : AreNames idNames := ⟨by decide, by decide⟩

section

variable {names : List (List Char)} {name value cs rest : List Char} {c : Char}

theorem attributeAt?_eq_none (h : ∀ name ∈ names, ¬ opening name <+: cs) :
    attributeAt? (names.map opening) cs = none := by
  have hfind : (names.map opening).find? (·.isPrefixOf cs) = none := by
    simpa [List.find?_eq_none] using h
  rw [attributeAt?, hfind]
  rfl

theorem takeWhile_value (value_noQuote : '"' ∉ value) (rest : List Char) :
    (value ++ '"' :: rest).takeWhile (· != '"') = value := by
  have hvalue : ∀ c ∈ value, (c != '"') = true := by
    intro c hc
    exact bne_iff_ne.2 fun heq => value_noQuote (heq ▸ hc)
  rw [List.takeWhile_append_of_pos hvalue]
  simp

/-- The attribute of a name that is looked for is found with its value, if it
has one. -/
theorem attributeAt?_quoted (h : AreNames names) (name_noEquals : '=' ∉ name)
    (value_noQuote : '"' ∉ value) (rest : List Char) :
    attributeAt? (names.map opening)
      (name ++ '=' :: '"' :: (value ++ '"' :: rest)) =
      if names.contains name && !value.isEmpty then
        some (value, name.length + value.length + 3)
      else none := by
  have hbegins : ∀ n ∈ names,
      (opening n <+: name ++ '=' :: '"' :: (value ++ '"' :: rest) ↔
        n = name) := by
    intro n hn
    rw [opening_prefix_iff name_noEquals (h.plain n hn).1]
    exact and_iff_left rfl
  by_cases hmem : name ∈ names
  · obtain ⟨found, hfound⟩ : ∃ found, (names.map opening).find?
        (·.isPrefixOf (name ++ '=' :: '"' :: (value ++ '"' :: rest))) =
          some found := by
      rw [← Option.isSome_iff_exists, List.find?_isSome]
      exact ⟨opening name, List.mem_map_of_mem hmem,
        by simpa using (hbegins name hmem).2 rfl⟩
    obtain ⟨n, hn, rfl⟩ := List.mem_map.1 (List.mem_of_find?_eq_some hfound)
    obtain rfl : n = name :=
      (hbegins n hn).1 (by simpa using List.find?_some hfound)
    have hdrop :
        (n ++ '=' :: '"' :: (value ++ '"' :: rest)).drop (opening n).length =
        value ++ '"' :: rest := by
      simp [opening]
    have hvalue := takeWhile_value value_noQuote rest
    have hlength : (opening n).length = n.length + 2 := by simp [opening]
    have hclosed : (value ++ '"' :: rest).drop value.length = '"' :: rest :=
      List.drop_left
    rw [attributeAt?, hfound, Option.bind_eq_bind, Option.bind_some]
    dsimp only
    rw [hdrop, hvalue, hclosed, hlength]
    cases value with
    | nil => simp
    | cons d value => simp [hmem]; omega
  · rw [attributeAt?_eq_none]
    · simp [hmem]
    · intro n hn hopening
      exact hmem ((hbegins n hn).1 hopening ▸ hn)

theorem valuesFrom_cons {openings : List (List Char)} {behindWord : Bool}
    (h : attributeAt? openings (c :: cs) = none) :
    valuesFrom openings 0 behindWord (c :: cs) =
      valuesFrom openings 0 (Text.isWordChar c) cs := by
  rw [valuesFrom, h]
  cases behindWord <;> rfl

/-- What belongs to an attribute that is already read is passed over. -/
theorem valuesFrom_skip (openings : List (List Char)) (behindWord : Bool)
    (cs : List Char) (c : Char) (rest : List Char) :
    valuesFrom openings (cs.length + 1) behindWord (cs ++ c :: rest) =
      valuesFrom openings 0 (Text.isWordChar c) rest := by
  induction cs generalizing behindWord with
  | nil => rfl
  | cons d cs ih => exact ih (Text.isWordChar d)

theorem valuesFrom_noEquals (noEquals : '=' ∉ cs) (behindWord : Bool) :
    valuesFrom (names.map opening) 0 behindWord cs = [] := by
  induction cs generalizing behindWord with
  | nil => rfl
  | cons c cs ih =>
      have hnone : attributeAt? (names.map opening) (c :: cs) = none :=
        attributeAt?_eq_none fun _ _ => not_opening_prefix_of_noEquals noEquals
      rw [valuesFrom_cons hnone]
      exact ih (fun h => noEquals (List.mem_cons_of_mem c h)) _

/-- Nothing is found up to a character that no name has, where no equals sign
comes before. -/
theorem valuesFrom_through (noEquals : '=' ∉ cs) (hc : c ≠ '=')
    (hnames : ∀ name ∈ names, c ∉ name) (behindWord : Bool) (rest : List Char) :
    valuesFrom (names.map opening) 0 behindWord (cs ++ c :: rest) =
      valuesFrom (names.map opening) 0 (Text.isWordChar c) rest := by
  induction cs generalizing behindWord with
  | nil =>
      refine valuesFrom_cons (attributeAt?_eq_none fun name hname => ?_)
      have hempty : '=' ∉ ([] : List Char) := by simp
      exact not_opening_prefix hempty hc (hnames name hname) rest
  | cons d cs ih =>
      have hnone : attributeAt? (names.map opening)
          (d :: cs ++ c :: rest) = none :=
        attributeAt?_eq_none fun name hname =>
          not_opening_prefix noEquals hc (hnames name hname) rest
      rw [List.cons_append, valuesFrom_cons (by simpa using hnone)]
      exact ih (fun h => noEquals (List.mem_cons_of_mem d h)) _

/-- Nothing is found up to an equals sign that no double quote follows. -/
theorem valuesFrom_other (h : AreNames names) (noEquals : '=' ∉ cs)
    (noQuote : c ≠ '"') (behindWord : Bool) (rest : List Char) :
    valuesFrom (names.map opening) 0 behindWord (cs ++ '=' :: c :: rest) =
      valuesFrom (names.map opening) 0 false (c :: rest) := by
  have hnone : ∀ ds : List Char, '=' ∉ ds →
      attributeAt? (names.map opening) (ds ++ '=' :: c :: rest) = none := by
    intro ds hds
    refine attributeAt?_eq_none fun name hname hopening => ?_
    exact noQuote
      ((opening_prefix_iff hds (h.plain name hname).1 rest).1 hopening).2
  induction cs generalizing behindWord with
  | nil => exact valuesFrom_cons (hnone [] (by simp))
  | cons d cs ih =>
      have hfirst := hnone (d :: cs) noEquals
      rw [List.cons_append] at hfirst ⊢
      rw [valuesFrom_cons hfirst]
      exact ih (fun h => noEquals (List.mem_cons_of_mem d h)) _

/-- The value of an attribute in double quotes is found if the name ends as one
of the names and there is a value. -/
theorem valuesFrom_quoted (h : AreNames names) (name_noEquals : '=' ∉ name)
    (value_noEquals : '=' ∉ value) (value_noQuote : '"' ∉ value)
    (behindWord : Bool) (rest : List Char) :
    valuesFrom (names.map opening) 0 behindWord
      (name ++ '=' :: '"' :: (value ++ '"' :: rest)) =
      (if endsAs names behindWord name && !value.isEmpty then [value]
        else []) ++
        valuesFrom (names.map opening) 0 false rest := by
  have hquote : ∀ n ∈ names, '"' ∉ n := fun n hn => (h.plain n hn).2.2
  induction name generalizing behindWord with
  | nil =>
      have hempty : '=' ∉ ([] : List Char) := by simp
      have hequals :
          attributeAt? (names.map opening)
            ('=' :: '"' :: (value ++ '"' :: rest)) = none := by
        simpa [h.nonempty] using attributeAt?_quoted h hempty value_noQuote rest
      -- the quotes on both sides of the value end what could be the name of
      -- another attribute
      have hopen := valuesFrom_through (c := '"') hempty (by decide) hquote
        false (value ++ '"' :: rest)
      have hclose :=
        valuesFrom_through value_noEquals (by decide) hquote false rest
      rw [List.nil_append, valuesFrom_cons hequals]
      exact hopen.trans hclose
  | cons c name ih =>
      have hhere := attributeAt?_quoted h name_noEquals value_noQuote rest
      have hlater := ih (fun h => name_noEquals (List.mem_cons_of_mem c h))
        (Text.isWordChar c)
      rw [List.cons_append] at hhere ⊢
      by_cases htaken :
        (!behindWord && names.contains (c :: name) && !value.isEmpty) = true
      · simp only [Bool.and_eq_true, Bool.not_eq_true'] at htaken
        obtain ⟨⟨rfl, hname⟩, hvalue⟩ := htaken
        have hskip := valuesFrom_skip (names.map opening) (Text.isWordChar c)
          (name ++ '=' :: '"' :: value) '"' rest
        rw [show Text.isWordChar '"' = false by decide] at hskip
        have hlength : (c :: name).length + value.length + 3 - 1 =
            (name ++ '=' :: '"' :: value).length + 1 := by
          simp
          omega
        rw [valuesFrom, if_neg Bool.false_ne_true, hhere, endsAs, hname, hvalue]
        simp only [Bool.not_false, Bool.and_self, Bool.true_or,
          if_true, hlength]
        simpa using hskip
      · have hpassed : valuesFrom (names.map opening) 0 behindWord
            (c :: (name ++ '=' :: '"' :: (value ++ '"' :: rest))) =
              valuesFrom (names.map opening) 0 (Text.isWordChar c)
                (name ++ '=' :: '"' :: (value ++ '"' :: rest)) := by
          rw [valuesFrom, hhere]
          cases behindWord with
          | true => rfl
          | false =>
              rw [Bool.not_false, Bool.true_and] at htaken
              rw [if_neg Bool.false_ne_true, if_neg htaken]
        have hsame : ((!behindWord && names.contains (c :: name) ||
            endsAs names (Text.isWordChar c) name) && !value.isEmpty) =
              (endsAs names (Text.isWordChar c) name && !value.isEmpty) := by
          rw [Bool.and_or_distrib_right, Bool.not_eq_true _ |>.mp htaken,
            Bool.false_or]
        rw [hpassed, hlater, endsAs, hsame]

/-- The values of the attributes whose names end as one of some names. -/
def takenAmong (names : List (List Char))
    (shown : List (List Char × List Char)) : List String :=
  (shown.filter fun a => endsAs names false a.1).map fun a => String.ofList a.2

theorem isEmpty_ofList (cs : List Char) :
    (String.ofList cs).isEmpty = cs.isEmpty := by
  cases cs <;> simp

theorem map_valuesFrom_of_shows (h : AreNames names)
    {shown : List (List Char × List Char)} (hshows : Shows cs shown)
    (behindWord : Bool) :
    (valuesFrom (names.map opening) 0 behindWord cs).map String.ofList =
      (takenAmong names shown).filter (!·.isEmpty) := by
  induction hshows generalizing behindWord with
  | quiet noEquals => rw [valuesFrom_noEquals noEquals]; rfl
  | other noEquals noQuote _ ih => rw [valuesFrom_other h noEquals noQuote, ih]
  | @quoted cs name value rest shown noEquals name_noEquals value_noEquals
    value_noQuote _ ih =>
      have hspace : ∀ n ∈ names, ' ' ∉ n := fun n hn => (h.plain n hn).2.1
      rw [takenAmong] at ih
      rw [valuesFrom_through noEquals (by decide) hspace, show Text.isWordChar
        ' ' = false by decide, valuesFrom_quoted h name_noEquals value_noEquals
        value_noQuote, List.map_append, ih, takenAmong, List.filter_cons]
      cases endsAs names false name with
      | false => rfl
      | true =>
          rw [if_pos rfl, List.map_cons, List.filter_cons, isEmpty_ofList]
          cases value <;> rfl

end

/-- What is scraped from a text are the values that its attributes show, without
the empty ones. -/
theorem values_of_shows {names : List (List Char)} (h : AreNames names)
    {markup : String} {shown : List (List Char × List Char)}
    (hshows : Shows markup.toList shown) :
    values (names.map opening) markup =
      (takenAmong names shown).filter (!·.isEmpty) :=
  map_valuesFrom_of_shows h hshows false

end Scaffold.Component.Selectors
