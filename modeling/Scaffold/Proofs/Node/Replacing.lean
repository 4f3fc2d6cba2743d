import Scaffold.Proofs.Repeat.Alike
/-!
Changes of a row of nodes at one place.  What is put at the end of the deepest
last node can be found there, and a row of nodes can stand for another one
somewhere in a tree with all the rest unchanged.
-/
namespace Scaffold

def Tag.EndsWith (t : Tag) (text : String) : Prop :=
  ∃ front last, t.value = some (front ++ [.text (last ++ text)])

theorem Tag.endsWith_appendText (t : Tag) (text : String) :
    (t.appendText text).EndsWith text := by
  rcases Piece.appendText_eq (t.value.getD []) text
    with ⟨front, last, -, heq⟩ | heq
  · exact ⟨front, last, congrArg some heq⟩
  · exact ⟨t.value.getD [], "",
      by rw [String.empty_append]; exact congrArg some heq⟩

/-- Pieces with a text more at their end, where it goes on with a text that
stands there. -/
inductive Piece.GrownBy (text : String) : List Piece → List Piece → Prop
  | onto (front : List Piece) (last : String) :
      GrownBy text (front ++ [.text last]) (front ++ [.text (last ++ text)])
  | behind {ps : List Piece} (h : ∀ last, ps.getLast? ≠ some (.text last)) :
      GrownBy text ps (ps ++ [.text text])

theorem Piece.grownBy_appendText (text : String) (ps : List Piece) :
    GrownBy text ps (appendText ps text) := by
  rw [appendText]
  cases hlast : ps.getLast? with
  | none => exact .behind fun last => by simp [hlast]
  | some piece =>
      cases piece with
      | text last =>
          obtain ⟨front, rfl⟩ := List.getLast?_eq_some_iff.1 hlast
          dsimp only
          rw [List.dropLast_concat]
          exact .onto front last
      | field index name => exact .behind fun last => by simp [hlast]

namespace Node

/-- Two rows of nodes are the same but for a text more at the end of the last
node on the way down through last nodes. -/
inductive GrownBy (text : String) : List Node → List Node → Prop
  | here (front : List Node) (tag : Tag) {value : List Piece}
      (h : Piece.GrownBy text (tag.value.getD []) value) :
      GrownBy text (front ++ [⟨tag, []⟩])
        (front ++ [⟨{ tag with value := some value }, []⟩])
  | inside (front : List Node) (tag : Tag) {ns ms : List Node}
      (h : GrownBy text ns ms) :
      GrownBy text (front ++ [⟨tag, ns⟩]) (front ++ [⟨tag, ms⟩])

theorem GrownBy.behind {text : String} {ns ms : List Node}
    (h : GrownBy text ns ms) (n : Node) : GrownBy text (n :: ns) (n :: ms) := by
  cases h with
  | here front tag hvalue => exact .here (n :: front) tag hvalue
  | inside front tag h => exact .inside (n :: front) tag h

mutual

theorem grownBy_modifyDeepest (text : String) (n : Node) :
    GrownBy text [n]
      [modifyDeepest (fun n => { n with tag := n.tag.appendText text }) n] := by
  match n with
  | ⟨tag, []⟩ =>
      rw [modifyDeepest]
      exact .here [] tag (Piece.grownBy_appendText text _)
  | ⟨tag, c :: cs⟩ =>
      rw [modifyDeepest]
      exact .inside [] tag (grownBy_modifyLast text (List.cons_ne_nil c cs))

theorem grownBy_modifyLast (text : String) {ns : List Node} (hne : ns ≠ []) :
    GrownBy text ns
      (modifyLast (fun n => { n with tag := n.tag.appendText text }) ns) := by
  match ns with
  | [] => exact absurd rfl hne
  | [c] =>
      rw [modifyLast]
      exact grownBy_modifyDeepest text c
  | c :: d :: ds =>
      rw [modifyLast]
      exact (grownBy_modifyLast text (List.cons_ne_nil d ds)).behind c

end

/-- The tag of the deepest last node of the last of some nodes. -/
def lastTag? (ns : List Node) : Option Tag := ns.getLast?.map (·.deepest.tag)

theorem exists_lastTag? {ns : List Node} (hne : ns ≠ []) :
    ∃ tag, lastTag? ns = some tag := by
  obtain ⟨last, hlast⟩ :=
    Option.ne_none_iff_exists'.1 (mt List.getLast?_eq_none_iff.1 hne)
  exact ⟨last.deepest.tag, by rw [lastTag?, hlast, Option.map_some]⟩

theorem deepestOf_eq (node : Node) {ns : List Node} {last : Node}
    (hlast : ns.getLast? = some last) : deepestOf node ns = last.deepest := by
  induction ns with
  | nil => cases hlast
  | cons n ns ih =>
      cases ns with
      | nil =>
          rw [List.getLast?_singleton, Option.some.injEq] at hlast
          rw [deepestOf, hlast]
      | cons m ms =>
          rw [List.getLast?_cons_cons] at hlast
          rw [deepestOf]
          exact ih hlast

theorem deepest_mk_nil (tag : Tag) : deepest ⟨tag, []⟩ = ⟨tag, []⟩ := by
  rw [deepest, deepestOf]

theorem deepest_mk {tag : Tag} {children : List Node} {last : Node}
    (hlast : children.getLast? = some last) :
    deepest ⟨tag, children⟩ = last.deepest := by
  rw [deepest, deepestOf_eq _ hlast]

mutual

theorem tag_deepest_modifyDeepest (f : Tag → Tag) (n : Node) :
    (modifyDeepest (fun n => { n with tag := f n.tag }) n).deepest.tag =
      f n.deepest.tag := by
  match n with
  | ⟨tag, []⟩ => rw [modifyDeepest, deepest_mk_nil, deepest_mk_nil]
  | ⟨tag, c :: cs⟩ =>
      obtain ⟨last, hlast⟩ := Option.ne_none_iff_exists'.1
        (mt List.getLast?_eq_none_iff.1 (List.cons_ne_nil c cs))
      have hbelow := lastTag?_modifyLast f (c :: cs)
      rw [lastTag?, lastTag?, hlast, Option.map_some, Option.map_some] at hbelow
      obtain ⟨last', hlast', htag⟩ := Option.map_eq_some_iff.1 hbelow
      rw [modifyDeepest, deepest_mk hlast', deepest_mk hlast, htag]

/-- Changing the deepest last node changes its tag. -/
theorem lastTag?_modifyLast (f : Tag → Tag) (ns : List Node) :
    lastTag? (modifyLast (fun n => { n with tag := f n.tag }) ns) =
      (lastTag? ns).map f := by
  match ns with
  | [] => rfl
  | [c] =>
      rw [modifyLast, lastTag?, lastTag?]
      exact congrArg some (tag_deepest_modifyDeepest f c)
  | c :: d :: ds =>
      have hrest := lastTag?_modifyLast f (d :: ds)
      have hne : modifyLast (fun n => { n with tag := f n.tag })
          (d :: ds) ≠ [] := by
        cases ds <;> simp [modifyLast]
      obtain ⟨e, es, hes⟩ := List.exists_cons_of_ne_nil hne
      rw [modifyLast, hes]
      rw [hes] at hrest
      exact hrest

end

/-- Two rows of nodes are the same, except that somewhere in or below them the
second one has `new` where the first one has `old`. -/
inductive Replaced (old new : List Node) : List Node → List Node → Prop
  | here (rest : List Node) : Replaced old new (old ++ rest) (new ++ rest)
  | behind (n : Node) {ns ms : List Node} (h : Replaced old new ns ms) :
      Replaced old new (n :: ns) (n :: ms)
  | inside (tag : Tag) {ns ms : List Node} (h : Replaced old new ns ms)
    (rest : List Node) :
      Replaced old new (⟨tag, ns⟩ :: rest) (⟨tag, ms⟩ :: rest)

namespace Replaced

variable {old new ns ms : List Node}

theorem append_left (h : Replaced old new ns ms) (front : List Node) :
    Replaced old new (front ++ ns) (front ++ ms) := by
  induction front with
  | nil => exact h
  | cons n front ih => exact .behind n ih

theorem append_right (h : Replaced old new ns ms) (rest : List Node) :
    Replaced old new (ns ++ rest) (ms ++ rest) := by
  induction h with
  | here more =>
      rw [List.append_assoc, List.append_assoc]
      exact .here (more ++ rest)
  | behind n _ ih => exact .behind n ih
  | inside tag h more _ => exact .inside tag h (more ++ rest)

end Replaced

end Node

end Scaffold
