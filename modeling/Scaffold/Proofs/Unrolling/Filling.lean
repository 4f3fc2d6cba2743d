import Scaffold.Proofs.Node.Replacing
import Scaffold.Proofs.Unrolling.Counting
import Scaffold.Proofs.Unrolling.Placeless
import Scaffold.Proofs.Unrolling.Surfacing
/-!
One bare repeater and nothing else for the text to go to.  Its copies are those
of a counted repeater with one text at the end of each, everything around them
is as it is without text, and the text as a whole is not put in once more.  Main
statement: `unroll_alone`.
-/
namespace Scaffold.Unrolling

open Statement

def plainOnce (s : Settings) (t : Statement) (copy : Option Repeat)
    (chain : Chain) : List Node :=
  match t with
  | .element e children =>
      plainElement s chain copy e (plainForest s chain children)
  | .group children _ => (plainForest s chain children).map (plainWithin copy)

mutual

/-- The plain unrolling of a statement, but for what a bare repeater repeats: in
the place of that are given nodes. -/
def plainAround (s : Settings) (given : List Node) (chain : Chain) :
    Statement → List Node
  | .element e children =>
      if isExplicitRepeater e.repeater then
        plainCopies chain e.repeater fun copy chain =>
          plainElement s chain copy e (plainAroundForest s given chain children)
      else given
  | .group children r =>
      if isExplicitRepeater r then
        plainCopies chain r fun copy chain =>
          (plainAroundForest s given chain children).map (plainWithin copy)
      else given

def plainAroundForest (s : Settings) (given : List Node) (chain : Chain) :
    List Statement → List Node
  | [] => []
  | t :: ts => plainAround s given chain t ++ plainAroundForest s given chain ts

end

theorem plainNodes_eq (s : Settings) (chain : Chain) (t : Statement) :
    plainNodes s chain t = plainCopies chain t.repeater (plainOnce s t) := by
  cases t <;> rw [plainNodes] <;> rfl

theorem plainOnce_placeless (s : Settings) {t : Statement}
    (hplace : t.hasPlace = false) {chain chain' : Chain}
    (hchain : chain.map Repeat.counted = chain'.map Repeat.counted)
    (copy : Option Repeat) :
    plainOnce s t copy chain =
      plainOnce { s with text := none } t copy chain' := by
  cases t with
  | element e children =>
      rw [hasPlace, Bool.or_eq_false_iff] at hplace
      rw [plainOnce, plainOnce, plainForest_placeless s hchain hplace.2,
        plainElement_placeless s hchain hplace.1]
  | group children r =>
      rw [plainOnce, plainOnce, plainForest_placeless s hchain hplace]

/-! ### Statements that no text goes to -/

section Explicit

variable (s : Settings)

theorem inRounds_of_explicit {r : Option Repeater}
    (explicit : isExplicitRepeater r = true) {chain : Chain}
    {landed lands : Bool} {nodes : Option Repeat → Chain → Bool → List Node}
    {plain : Option Repeat → Chain → List Node}
    (hnodes : ∀ copy chain before, nodes copy chain before = plain copy chain) :
    (s.inRounds chain r landed lands fun copy chain before =>
      settle s copy (landed || lands) (nodes copy chain before)) =
        plainCopies chain r plain := by
  cases r with
  | none => exact hnodes none chain landed
  | some r =>
      have himplicit : r.implicit = false := by
        simpa [isExplicitRepeater] using explicit
      have hcount : s.copies r = plainCount r := by
        rw [Settings.copies, himplicit]
        split <;> rfl
      rw [Settings.inRounds, hcount, himplicit]
      apply List.flatMap_congr
      intro i _
      exact hnodes _ _ _

mutual

theorem settledOnce_of_isExplicit {t : Statement}
    (explicit : isExplicitForest t.children = true) (copy : Option Repeat)
    (chain : Chain) (landed : Bool) :
    settledOnce s t copy chain landed = plainOnce s t copy chain := by
  match t with
  | .element e children =>
      have hbelow : isExplicitForest children = true := explicit
      rw [settledOnce, plainOnce, settledForest_of_isExplicit hbelow]
  | .group children r =>
      have hbelow : isExplicitForest children = true := explicit
      rw [settledOnce, plainOnce, settledForest_of_isExplicit hbelow,
        plainWithin_eq]

theorem settledNodes_of_isExplicit {t : Statement}
    (explicit : isExplicit t = true) (chain : Chain) (landed : Bool) :
    settledNodes s chain landed t = plainNodes s chain t := by
  have hrepeater : isExplicitRepeater t.repeater = true ∧
      isExplicitForest t.children = true := by
    cases t <;> rwa [isExplicit, Bool.and_eq_true] at explicit
  have honce : ∀ copy chain before,
      settledOnce s t copy chain before = plainOnce s t copy chain :=
    fun copy chain before =>
      settledOnce_of_isExplicit hrepeater.2 copy chain before
  rw [settledNodes_eq, plainNodes_eq]
  exact inRounds_of_explicit s hrepeater.1 honce

/-- Without a bare repeater there is no copy to put a text into. -/
theorem settledForest_of_isExplicit {ts : List Statement}
    (explicit : isExplicitForest ts = true) (chain : Chain) (landed : Bool) :
    settledForest s chain landed ts = plainForest s chain ts := by
  match ts with
  | [] => rfl
  | t :: ts =>
      rw [isExplicitForest, Bool.and_eq_true] at explicit
      rw [settledForest, plainForest, settledNodes_of_isExplicit explicit.1,
        settledForest_of_isExplicit explicit.2]

end

variable (given : List Node)

mutual

theorem plainAround_of_isExplicit {t : Statement}
    (explicit : isExplicit t = true) (chain : Chain) :
    plainAround s given chain t = plainNodes s chain t := by
  match t with
  | .element e children =>
      rw [isExplicit, Bool.and_eq_true] at explicit
      rw [plainAround, plainNodes, if_pos explicit.1]
      simp only [plainAroundForest_of_isExplicit explicit.2]
  | .group children r =>
      rw [isExplicit, Bool.and_eq_true] at explicit
      rw [plainAround, plainNodes, if_pos explicit.1]
      simp only [plainAroundForest_of_isExplicit explicit.2]

/-- Without a bare repeater the given nodes are nowhere. -/
theorem plainAroundForest_of_isExplicit {ts : List Statement}
    (explicit : isExplicitForest ts = true) (chain : Chain) :
    plainAroundForest s given chain ts = plainForest s chain ts := by
  match ts with
  | [] => rfl
  | t :: ts =>
      rw [isExplicitForest, Bool.and_eq_true] at explicit
      rw [plainAroundForest, plainForest, plainAround_of_isExplicit explicit.1,
        plainAroundForest_of_isExplicit explicit.2]

end

theorem plainAround_of_isBare {t : Statement} (hbare : t.isBare = true)
    (chain : Chain) : plainAround s given chain t = given := by
  obtain ⟨r, hr, himplicit⟩ := isBare_iff.1 hbare
  have hrepeater : isExplicitRepeater t.repeater = false := by
    rw [hr, isExplicitRepeater, Option.all_some, himplicit]
    rfl
  cases t with
  | element e children =>
      rw [plainAround]
      exact if_neg (Bool.not_eq_true _ ▸ hrepeater)
  | group children r =>
      rw [plainAround]
      exact if_neg (Bool.not_eq_true _ ▸ hrepeater)

end Explicit

theorem onceLands_eq_false {t : Statement}
    (explicit : isExplicitForest t.children = true)
    (hplace : t.hasPlace = false) : t.onceLands = false := by
  cases t with
  | element e children =>
      rw [hasPlace, Bool.or_eq_false_iff, e.hasPlace_eq, Bool.or_eq_false_iff]
        at hplace
      obtain ⟨⟨hhead, htail⟩, hbelow⟩ := hplace
      simp only [onceLands, headLands, tailLands, hhead, htail, Bool.false_or,
        Bool.or_false]
      rw [anyLands_of_isExplicitForest explicit]
      exact hbelow
  | group children r =>
      simp only [onceLands, headLands, tailLands, Bool.false_or, Bool.or_false]
      rw [anyLands_of_isExplicitForest explicit]
      exact hplace

/-! ### The copies of a bare repeater -/

def countedCopies (s : Settings) (t : Statement) (count : Nat) : List Node :=
  (List.range count).flatMap fun i =>
    plainOnce s t (some ⟨count, i, false⟩) [⟨count, i, false⟩]

/-- A copy of a statement with the mark of a bare repeater. -/
def bareCopy (s : Settings) (t : Statement) (count i : Nat) : List Node :=
  plainOnce s t (some ⟨count, i, true⟩) [⟨count, i, false⟩]

/-- All copies of a statement with the mark of a bare repeater, each with a text
put into it. -/
def filledCopies (s : Settings) (t : Statement) (parts : List String) :
    List (List Node) :=
  parts.zipIdx.map fun (part, i) =>
    fillDeepest part (bareCopy s t parts.length i)

theorem grownBy_filledCopies (s : Settings) (t : Statement)
    (parts : List String) (hbody : ∀ count i, bareCopy s t count i ≠ []) :
    List.Forall₂ (fun (part, i) copy =>
      Node.GrownBy part (bareCopy s t parts.length i) copy)
      parts.zipIdx (filledCopies s t parts) := by
  rw [filledCopies, List.forall₂_map_right_iff, List.forall₂_same]
  rintro ⟨part, i⟩ -
  exact Node.grownBy_modifyLast part (hbody parts.length i)

theorem plainOnce_counting (s : Settings) {t : Statement} (k : Nat)
    (explicit : isExplicitForest t.children = true) (copy : Option Repeat)
    (chain : Chain) :
    plainOnce s (t.counting k) copy chain = plainOnce s t copy chain := by
  cases t with
  | element e children =>
      have hbelow : countingAll k children = children :=
        countingAll_of_isExplicitForest explicit
      rw [counting, plainOnce, hbelow]
      rfl
  | group children r =>
      have hbelow : countingAll k children = children :=
        countingAll_of_isExplicitForest explicit
      rw [counting, plainOnce, hbelow]
      rfl

theorem plainNodes_counting (s : Settings) {t : Statement} {k : Nat}
    (hk : 0 < k) (hbare : t.isBare = true)
    (explicit : isExplicitForest t.children = true) :
    plainNodes s [] (t.counting k) = countedCopies s t k := by
  obtain ⟨r, hr, himplicit⟩ := isBare_iff.1 hbare
  have hcount : plainCount (r.counting k) = k := by
    rw [plainCount, Repeater.counting, if_pos himplicit]
    exact Nat.max_eq_left hk
  rw [plainNodes_eq, repeater_counting, hr, Option.map_some, plainCopies,
    hcount, countedCopies]
  simp only [plainOnce_counting s k explicit]
  rfl

section Alone

variable {s : Settings} {items : List String}

/-- A copy as it is before its text is put into it. -/
theorem settledOnce_placeless {t : Statement}
    (explicit : isExplicitForest t.children = true)
    (hplace : t.hasPlace = false) (count i : Nat) (landed : Bool) :
    settledOnce s t (some ⟨count, i, true⟩) [⟨count, i, true⟩] landed =
      bareCopy { s with text := none } t count i := by
  rw [settledOnce_of_isExplicit s explicit]
  exact plainOnce_placeless s hplace (by rfl) _

theorem settledNodes_of_isBare (text : s.text = some (.items items))
    {t : Statement} (hbare : t.isBare = true)
    (explicit : isExplicitForest t.children = true)
    (hplace : t.hasPlace = false) :
    settledNodes s [] false t =
      (filledCopies { s with text := none } t
        (ReplacementText.items items).parts).flatten := by
  have hcopies := settledNodes_conversion text ⟨[], t, false, hbare⟩
  have hquiet := onceLands_eq_false explicit hplace
  rw [hcopies, filledCopies, ← List.flatMap_def]
  apply List.flatMap_congr
  rintro ⟨part, i⟩ -
  dsimp only [Conversion.copy, Conversion.body]
  rw [hquiet, if_neg (by decide), settledOnce_placeless explicit hplace]

/-! ### Everything around them -/

theorem map_plainWithin_none (nodes : List Node) :
    nodes.map (plainWithin none) = nodes := by
  have hsame : plainWithin none = id := by
    funext n
    obtain ⟨⟨name, value, attributes, own, selfClosing⟩, children⟩ := n
    cases own <;> rfl
  rw [hsame, List.map_id]

/-- What is replaced below an element is replaced in it, also if it is put
beside the element. -/
theorem replaced_plainElement (s : Settings) (e : ElementTokens)
    {old new ns ms : List Node} (h : Node.Replaced old new ns ms) :
    Node.Replaced old new (plainElement s [] none e ns)
      (plainElement s [] none e ms) := by
  rw [plainElement, plainElement]
  dsimp only
  split
  · exact .behind _ h
  · exact .inside _ h []

/-- What statements around one bare repeater come to, with a count written out
for it and with texts: both are the same but for the copies. -/
structure IsAround (s : Settings) (items : List String) (t : Statement)
    (counted settled : List Node) (around : List Node → List Node)
    (found : List Conversion) : Prop where
  counted : counted = around (countedCopies { s with text := none } t
    (ReplacementText.items items).parts.length)
  settled : settled = around (filledCopies { s with text := none } t
    (ReplacementText.items items).parts).flatten
  replaced : ∀ old new, Node.Replaced old new (around old) (around new)
  explicit : isExplicitForest t.children = true
  placeless : t.hasPlace = false
  /-- The repeater is converted before text has landed. -/
  found : ∃ hbare, ⟨[], t, false, hbare⟩ ∈ found

namespace IsAround

variable {t : Statement} {counted settled : List Node}
    {around : List Node → List Node} {found : List Conversion}

theorem behind (h : IsAround s items t counted settled around found)
    (front : List Node) (earlier : List Conversion) :
    IsAround s items t (front ++ counted) (front ++ settled)
      (fun given => front ++ around given) (earlier ++ found) where
  counted := congrArg (front ++ ·) h.counted
  settled := congrArg (front ++ ·) h.settled
  replaced := fun old new => (h.replaced old new).append_left front
  explicit := h.explicit
  placeless := h.placeless
  found := h.found.imp fun _ hmem => List.mem_append_right earlier hmem

theorem inFront (h : IsAround s items t counted settled around found)
    (rest : List Node) (later : List Conversion) :
    IsAround s items t (counted ++ rest) (settled ++ rest)
      (fun given => around given ++ rest) (found ++ later) where
  counted := congrArg (· ++ rest) h.counted
  settled := congrArg (· ++ rest) h.settled
  replaced := fun old new => (h.replaced old new).append_right rest
  explicit := h.explicit
  placeless := h.placeless
  found := h.found.imp fun _ hmem => List.mem_append_left later hmem

theorem element (h : IsAround s items t counted settled around found)
    (e : ElementTokens) :
    IsAround s items t (plainElement { s with text := none } [] none e counted)
      (plainElement { s with text := none } [] none e settled)
      (fun given =>
        plainElement { s with text := none } [] none e (around given))
      found where
  counted := congrArg (plainElement { s with text := none } [] none e) h.counted
  settled := congrArg (plainElement { s with text := none } [] none e) h.settled
  replaced := fun old new => replaced_plainElement _ e (h.replaced old new)
  explicit := h.explicit
  placeless := h.placeless
  found := h.found

end IsAround

/-- The one bare repeater is that of a statement or below one that nothing
repeats. -/
theorem here_or_below {t u : Statement} (hbares : u.bares = [t])
    (houter : u.outerBares = [t]) :
    (u = t ∧ u.isBare = true ∧ isExplicitForest u.children = true) ∨
      (u.repeater = none ∧ baresOf u.children = [t] ∧
        outerBaresOf u.children = [t]) := by
  rw [bares_eq] at hbares
  rw [outerBares_eq] at houter
  by_cases hbare : u.isBare = true
  · rw [if_pos hbare, List.singleton_append, List.cons.injEq] at hbares
    exact .inl ⟨hbares.1, hbare, isExplicitForest_of_bares hbares.2⟩
  · rw [if_neg hbare, List.nil_append] at hbares
    rw [if_neg hbare] at houter
    have hnone : u.repeater = none := by
      rw [← Option.isNone_iff_eq_none]
      by_contra hsome
      rw [if_neg hsome] at houter
      cases houter
    rw [hnone, Option.isNone_none, if_pos rfl] at houter
    exact .inr ⟨hnone, hbares, houter⟩

theorem conversions_of_repeater_eq_none (s : Settings) {u : Statement}
    (hnone : u.repeater = none) :
    conversions s [] false u = conversionsOnce s u [] false := by
  have hbare : ¬ u.isBare = true := by simp [isBare, hnone]
  rw [conversions_eq, dif_neg hbare, List.nil_append, hnone]
  rfl

/-- The bare repeater itself. -/
theorem isAround_here (text : s.text = some (.items items))
    (hparts : (ReplacementText.items items).parts ≠ []) {t : Statement}
    (hbare : t.isBare = true) (explicit : isExplicitForest t.children = true)
    (hplace : t.hasPlace = false) :
    IsAround s items t
      (plainNodes { s with text := none } []
        (t.counting (ReplacementText.items items).parts.length))
      (settledNodes s [] false t)
      (fun given => plainAround { s with text := none } given [] t)
      (conversions s [] false t) where
  counted := by
    rw [plainAround_of_isBare _ _ hbare,
      plainNodes_counting _ (List.length_pos_iff.2 hparts) hbare explicit]
  settled := by
    rw [plainAround_of_isBare _ _ hbare,
      settledNodes_of_isBare text hbare explicit hplace]
  replaced := fun old new => by
    rw [plainAround_of_isBare _ _ hbare, plainAround_of_isBare _ _ hbare]
    have hhere : Node.Replaced old new (old ++ []) (new ++ []) := .here []
    rwa [List.append_nil, List.append_nil] at hhere
  explicit := explicit
  placeless := hplace
  found := by
    rw [conversions_eq]
    exact ⟨hbare, List.mem_append_left _ (by simp [hbare])⟩

mutual

theorem isAround_statement (text : s.text = some (.items items))
    (hparts : (ReplacementText.items items).parts ≠ []) {t u : Statement}
    (hbares : u.bares = [t]) (houter : u.outerBares = [t])
    (hplace : u.hasPlace = false) :
    IsAround s items t
      (plainNodes { s with text := none } []
        (u.counting (ReplacementText.items items).parts.length))
      (settledNodes s [] false u)
      (fun given => plainAround { s with text := none } given [] u)
      (conversions s [] false u) := by
  rcases here_or_below hbares houter with
    ⟨rfl, hbare, explicit⟩ | ⟨hnone, hbares, houter⟩
  · exact isAround_here text hparts hbare explicit hplace
  · rw [conversions_of_repeater_eq_none s hnone, settledNodes_eq, plainNodes_eq,
      repeater_counting, hnone]
    match u with
    | .element e children =>
        rw [hasPlace, Bool.or_eq_false_iff] at hplace
        have hempty : ([] : Chain).map Repeat.counted =
            ([] : Chain).map Repeat.counted := rfl
        have hhead : e.headHasPlace = false := by
          have hplaces := e.hasPlace_eq
          rw [hplace.1] at hplaces
          exact (Bool.or_eq_false_iff.1 hplaces.symm).1
        have hrepeater : e.repeater = none := hnone
        have hbelow :=
          (isAround_forest text hparts hbares houter hplace.2).element e
        simp only [plainAround, hrepeater, isExplicitRepeater, Option.all_none,
          if_true, Option.map_none, plainCopies, Settings.inRounds, settle,
          counting, settledOnce, plainOnce, conversionsOnce, hhead,
          Bool.or_false, plainElement_placeless s hempty hplace.1]
        exact hbelow
    | .group children r =>
        have hrepeater : r = none := hnone
        have hbelow := isAround_forest text hparts hbares houter hplace
        simp only [plainAround, hrepeater, isExplicitRepeater, Option.all_none,
          if_true, Option.map_none, plainCopies, Settings.inRounds, settle,
          counting, settledOnce, plainOnce, conversionsOnce, ← plainWithin_eq,
          map_plainWithin_none]
        exact hbelow

/-- Besides the copies of the one bare repeater, which is converted before text
has landed, everything is as it is without text. -/
theorem isAround_forest (text : s.text = some (.items items))
    (hparts : (ReplacementText.items items).parts ≠ []) {t : Statement}
    {us : List Statement} (hbares : baresOf us = [t])
    (houter : outerBaresOf us = [t]) (hplace : anyPlace us = false) :
    IsAround s items t
      (plainForest { s with text := none } []
        (countingAll (ReplacementText.items items).parts.length us))
      (settledForest s [] false us)
      (fun given => plainAroundForest { s with text := none } given [] us)
      (conversionsOf s [] false us) := by
  match us with
  | [] => cases hbares
  | u :: us =>
      rw [baresOf, List.append_eq_singleton_iff] at hbares
      rw [outerBaresOf] at houter
      rw [anyPlace, Bool.or_eq_false_iff] at hplace
      have hempty : ([] : Chain).map Repeat.counted =
          ([] : Chain).map Repeat.counted := rfl
      rw [settledForest, countingAll, plainForest, conversionsOf]
      simp only [plainAroundForest]
      rcases hbares with ⟨hfirst, hrest⟩ | ⟨hfirst, hrest⟩
      · have explicit := isExplicit_of_bares hfirst
        have hquiet : u.lands = false := by
          rw [lands_of_isExplicit explicit, hplace.1]
        rw [outerBares_eq_nil hfirst, List.nil_append] at houter
        rw [hquiet, settledNodes_of_isExplicit s explicit, plainNodes_placeless
          s hempty hplace.1, counting_of_isExplicit explicit]
        simp only [plainAround_of_isExplicit _ _ explicit]
        exact (isAround_forest text hparts hrest houter hplace.2).behind _ _
      · have explicit := isExplicitForest_of_bares hrest
        rw [outerBaresOf_eq_nil hrest, List.append_nil] at houter
        rw [settledForest_of_isExplicit s explicit, plainForest_placeless s
          hempty hplace.2, countingAll_of_isExplicitForest explicit]
        simp only [plainAroundForest_of_isExplicit _ _ explicit]
        exact (isAround_statement text hparts hfirst houter hplace.1).inFront
          _ _

end

end Alone

/-- With one bare repeater, none around it and no place for the text, and with
at least one text, the nodes are those that the same statements come to without
text if the number of texts is written out as the count of that repeater, but
for its copies: they have the mark of a bare repeater, and the last node on the
way down in each has its own text at the end.  Both are the plain unrolling
without text around these copies, so that the copies stand in the same place and
everything else is the same. -/
theorem unroll_alone {s : Settings} {items : List String}
    (text : s.text = some (.items items))
    (hparts : (ReplacementText.items items).parts ≠ []) {ts : List Statement}
    {t : Statement} (hbares : baresOf ts = [t]) (houter : outerBaresOf ts = [t])
    (hleaf : t.leaf? ≠ none) (hplace : anyPlace ts = false)
    (enough : s.roundsOf ts ≤ max s.maxRepeat 1) :
    ∃ copies : List (List Node),
      List.Forall₂ (fun (part, i) copy => Node.GrownBy part
          (bareCopy { s with text := none } t
            (ReplacementText.items items).parts.length i) copy)
        (ReplacementText.items items).parts.zipIdx copies ∧
      (unroll s ts).nodes =
        plainAroundForest { s with text := none } copies.flatten [] ts ∧
      (unroll { s with text := none }
          (countingAll (ReplacementText.items items).parts.length ts)).nodes =
        plainAroundForest { s with text := none }
          (countedCopies { s with text := none } t
            (ReplacementText.items items).parts.length) [] ts ∧
      Node.Replaced
        (countedCopies { s with text := none } t
          (ReplacementText.items items).parts.length)
        copies.flatten
        (unroll { s with text := none }
          (countingAll (ReplacementText.items items).parts.length ts)).nodes
        (unroll s ts).nodes ∧
      (unroll s ts).iterations =
        (unroll { s with text := none }
          (countingAll (ReplacementText.items items).parts.length
            ts)).iterations := by
  have hrounds := roundsOf_countingAll text hparts ts
  have hpos := copies_pos_of_items text hparts
  have haround := isAround_forest text hparts hbares houter hplace
  obtain ⟨hbare, hmem⟩ := haround.found
  have hbody : ∀ count i, bareCopy { s with text := none } t count i ≠ [] := by
    intro count i
    rw [← settledOnce_placeless haround.explicit haround.placeless
      count i false]
    exact settledOnce_ne_nil hpos hleaf _ _ _
  have hfills : Conversion.Fills s ⟨[], t, false, hbare⟩ :=
    ⟨rfl, onceLands_eq_false haround.explicit haround.placeless,
      fun count => settledOnce_ne_nil hpos hleaf _ _ _, fun r _ => hpos r⟩
  obtain ⟨-, hiterations⟩ :=
    takes_statementsNodes s ts [] { budget := max s.maxRepeat 1 } enough
  obtain ⟨hcounted, -, hcounted'⟩ := affords_forest { s with text := none } []
    (countingAll (ReplacementText.items items).parts.length ts)
      (isExplicitForest_countingAll _ ts)
    { budget := max s.maxRepeat 1 } (by rw [← hrounds]; exact enough)
  rw [unroll_of_fills text enough hmem hfills,
    unroll_of_text_eq_none rfl, hcounted]
  refine ⟨_, grownBy_filledCopies _ t _ hbody, haround.settled,
    haround.counted, ?_, ?_⟩
  · rw [haround.settled, haround.counted]
    exact haround.replaced _ _
  · rw [hiterations, hcounted', hrounds]

namespace FillingWitness

/-- A term and what is said of it, for each text. -/
def pair : Statement :=
  .group
    [.element { name := some [.implied "dt"] } [],
      .element { name := some [.implied "dd"] } []]
    (some ⟨1, true⟩)

/-- A list of such pairs behind a heading. -/
def page : List Statement :=
  [.element { name := some [.implied "h1"], repeater := some ⟨2, false⟩ } [],
    .element { name := some [.implied "dl"] } [pair]]

/-- Two texts, with a blank one between them. -/
def settings : Settings := { text := some (.items ["x", " ", "y"]) }

theorem unroll_alone_pair :
    (ReplacementText.items ["x", " ", "y"]).parts ≠ [] ∧ baresOf page = [pair] ∧
      outerBaresOf page = [pair] ∧ pair.leaf? ≠ none ∧ anyPlace page = false ∧
      settings.roundsOf page ≤ max settings.maxRepeat 1 ∧
      ∃ first second : List Node,
        Node.GrownBy "x" (bareCopy {} pair 2 0) first ∧
        Node.GrownBy "y" (bareCopy {} pair 2 1) second ∧
        (unroll settings page).nodes = plainAroundForest {}
          (first ++ second) [] page ∧
        (unroll {} (countingAll 2 page)).nodes =
          plainAroundForest {} (countedCopies {} pair 2) [] page := by
  have hparts : (ReplacementText.items ["x", " ", "y"]).parts = ["x", "y"] := by
    decide
  have hne : (ReplacementText.items ["x", " ", "y"]).parts ≠ [] := by
    rw [hparts]
    exact List.cons_ne_nil _ _
  have hleaf : pair.leaf? ≠ none := by simp [pair, leaf?, leafOf?]
  have henough : settings.roundsOf page ≤ max settings.maxRepeat 1 := by decide
  obtain ⟨copies, hgrown, hfilled, hcounted, -⟩ :=
    unroll_alone (s := settings) rfl hne (t := pair) rfl rfl hleaf rfl henough
  rw [hparts] at hgrown hcounted
  obtain ⟨first, rest, hfirst, hrest, rfl⟩ :=
    List.forall₂_cons_left_iff.1 hgrown
  obtain ⟨second, none', hsecond, hnone, rfl⟩ :=
    List.forall₂_cons_left_iff.1 hrest
  obtain rfl := List.forall₂_nil_left_iff.1 hnone
  rw [List.flatten_cons, List.flatten_singleton] at hfilled
  exact ⟨hne, rfl, rfl, hleaf, rfl, henough, first, second, hfirst, hsecond,
    hfilled, hcounted⟩

end FillingWitness

end Scaffold.Unrolling
