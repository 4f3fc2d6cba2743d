import Scaffold.Proofs.Markup.FieldNumbers
/-!
Tab stops.  Fields with one index are filled in together, so the fields of
different values must not meet.  Every value that is emitted makes a unit, whose
indices are those of the value moved by one number, and all indices of a unit
are greater than those of the units in front, as long as the sums fit a word.
Main statement: `render_tabStops`.
-/
namespace Scaffold

namespace Markup

/-- The fields of values, those of each value by themselves, with the indices
they are given from a base on. -/
def units (base : Nat) : List (List Piece) → List (List (Nat × String))
  | [] => []
  | value :: rest =>
      (Piece.fields value).map (fun (index, name) => (base + index, name)) ::
      units (base + reach value) rest

/-- The fields of a value as they are written: with their names, and with their
indices all moved by one number, so that equal ones stay equal. -/
def MovedFrom (value : List Piece) (unit : List (Nat × String)) : Prop :=
  ∃ base, unit = (Piece.fields value).map fun (index, name) =>
    (base + index, name)

/-- All indices of the one unit are smaller than those of the other one. -/
def InFront (earlier later : List (Nat × String)) : Prop :=
  ∀ first ∈ earlier, ∀ second ∈ later, first.1 < second.1

theorem flatten_units (base : Nat) (values : List (List Piece)) :
    (units base values).flatten = numbered base values := by
  induction values generalizing base with
  | nil => rfl
  | cons value rest ih => rw [units, numbered, List.flatten_cons, ih]

theorem movedFrom_units (base : Nat) (values : List (List Piece)) :
    List.Forall₂ MovedFrom values (units base values) := by
  induction values generalizing base with
  | nil => exact .nil
  | cons value rest ih => exact .cons ⟨base, rfl⟩ (ih (base + reach value))

theorem le_of_mem_units {base : Nat} {values : List (List Piece)}
    {unit : List (Nat × String)} (hunit : unit ∈ units base values) :
    ∀ field ∈ unit, base ≤ field.1 := by
  induction values generalizing base with
  | nil => cases hunit
  | cons value rest ih =>
      rw [units, List.mem_cons] at hunit
      rcases hunit with rfl | hrest
      · intro field hfield
        obtain ⟨⟨index, name⟩, -, rfl⟩ := List.mem_map.1 hfield
        exact Nat.le_add_right base index
      · intro field hfield
        exact Nat.le_trans (Nat.le_add_right base (reach value))
          (ih hrest field hfield)

/-- The base of a unit is behind all indices of the units in front. -/
theorem pairwise_units (base : Nat) (values : List (List Piece)) :
    (units base values).Pairwise InFront := by
  induction values generalizing base with
  | nil => exact .nil
  | cons value rest ih =>
      rw [units, List.pairwise_cons]
      refine ⟨fun unit hunit first hfirst second hsecond =>
        ?_, ih (base + reach value)⟩
      obtain ⟨⟨index, name⟩, hfield, rfl⟩ := List.mem_map.1 hfirst
      have hreach : index < reach value := lt_reach hfield
      have hbase : base + reach value ≤ second.1 :=
        le_of_mem_units hunit second hsecond
      change base + index < second.1
      omega

end Markup

open Markup

/-- If all sums fit a word, the program writes the markup, and the fields in it
come in one unit for each value that is emitted.  Within a unit the indices are
those of the value, moved by one number; those of a later unit are all greater,
so fields of different values are never taken for the same tab stop. -/
theorem render_tabStops (c : Config) (nodes : List Node)
    (fits : ∀ sum ∈ additions 0 (Node.emittedOf c nodes),
      sum ≤ Numeral.wordMax) :
    ∃ (strokes : List Piece) (written : List (List (Nat × String))),
      (∀ field : Nat → String → String, (field 0 "").isEmpty =
        caretIsEmpty c.hooks →
        Node.render (c.withField field) nodes = inked field strokes ∧
          Node.render? (c.withField field) nodes = some (inked field strokes)) ∧
      Piece.fields strokes = written.flatten ∧
      List.Forall₂ MovedFrom (Node.emittedOf c nodes) written ∧
      written.Pairwise InFront := by
  obtain ⟨strokes, hfields, hpage⟩ := draws_page c nodes
  refine ⟨strokes, units 0 (Node.emittedOf c nodes), ?_, ?_,
    movedFrom_units _ _, pairwise_units _ _⟩
  · intro field hempty
    obtain ⟨hrender, hfits⟩ := hpage field hempty
    refine ⟨hrender, ?_⟩
    rw [Node.render?, if_pos (hfits.2 fits), hrender]
  · rw [hfields, flatten_units]

namespace TabStopsWitness

def tabStop (index : Nat) (name : String) : String :=
  "$\x7b" ++ Numeral.text index ++
    (if name.isEmpty then "" else ":" ++ name) ++ "\x7d"

def config : Config := { snippets := {}, hooks := { field := tabStop } }

/-- A paragraph with linked fields in its title, and a comment around an
element. -/
def tree : List Node :=
  [⟨{ name := some "p",
      attributes := some [{
        name := some "title"
        value :=
          some [.field 1 "", .text "-", .field 1 "", .field 3 "x"] }] }, []⟩,
    ⟨{ value := some [.text "<!--", .field 0 "", .text "-->", .field 2 ""] },
      [⟨{ name := some "b" }, []⟩]⟩]

theorem render_tabStops_linked :
    (∀ sum ∈ additions 0 (Node.emittedOf config tree), sum ≤ Numeral.wordMax) ∧
      Node.render config tree =
        "<p title=\"$\x7b1\x7d-$\x7b1\x7d$\x7b3:x\x7d\">$\x7b4\x7d</p>\n<!--<b>$\x7b5\x7d</b>-->$\x7b8\x7d" ∧
      ∃ (strokes : List Piece) (written : List (List (Nat × String))),
        Node.render config tree = inked tabStop strokes ∧
        Piece.fields strokes = written.flatten ∧
        List.Forall₂ MovedFrom (Node.emittedOf config tree) written ∧
        written.Pairwise InFront := by
  have fits : ∀ sum ∈ additions 0 (Node.emittedOf config tree),
      sum ≤ Numeral.wordMax := by
    decide
  obtain ⟨strokes, written, hrender, hrest⟩ := render_tabStops config tree fits
  exact ⟨fits, by decide +kernel, strokes, written,
    (hrender tabStop rfl).1, hrest⟩

end TabStopsWitness

end Scaffold
