import Mathlib
import Scaffold.Component.Props
import Scaffold.Manifest
import Scaffold.Proofs.Text.Blank
import Scaffold.Proofs.Text.Split
/-!
Props on their way from a manifest to a component.  A manifest lists them with
names and types, a request carries them as one text with commas between the
entries, and the component reads this text again.  The comma is all that gets
lost on the way: every prop comes back as it was declared exactly if no type has
one.  Main statement: `ofEntries_request_iff`.
-/
namespace Scaffold

namespace Component.PropDefinition

theorem ofEntries_of_not_mem {entry : String} (hcomma : ',' ∉ entry.toList)
    (htrimmed : Text.isTrimmed entry = true) (hne : entry ≠ "") :
    ofEntries entry = [ofEntry entry] := by
  have hkept : (!entry.isEmpty) = true := by simpa using hne
  rw [ofEntries, Text.splitAt_of_not_mem hcomma, List.map_singleton,
    Text.trim_of_isTrimmed htrimmed, List.filter_cons, if_pos hkept,
    List.filter_nil, List.map_singleton]

/-- Lists with a comma between them are read one by one. -/
theorem ofEntries_join (lists : List String) :
    ofEntries (Text.join "," lists) = lists.flatMap ofEntries := by
  cases lists with
  | nil => decide +kernel
  | cons s ss =>
      have hparts : Text.splitAt (Text.join "," (s :: ss)) ',' =
          (s :: ss).flatMap (Text.splitAt · ',') :=
        Text.splitAt_join (List.cons_ne_nil s ss) ','
      rw [ofEntries, hparts, List.map_flatMap, List.filter_flatMap,
        List.map_flatMap]
      rfl

/-- A type is read from its entry alone, so it has a comma only if the entry
has. -/
theorem not_mem_type_ofEntry {entry : String} (hcomma : ',' ∉ entry.toList) :
    ',' ∉ (ofEntry entry).type.toList := by
  rw [ofEntry]
  split
  · decide
  · dsimp only
    split
    · decide
    · intro hmem
      have htype := Text.mem_of_mem_trim hmem
      rw [String.toList_ofList] at htype
      exact hcomma (List.mem_of_mem_drop htype)

theorem not_mem_type_of_mem_ofEntries {props : String} {p : PropDefinition}
    (hp : p ∈ ofEntries props) : ',' ∉ p.type.toList := by
  rw [ofEntries] at hp
  obtain ⟨entry, hentry, rfl⟩ := List.mem_map.1 hp
  obtain ⟨part, hpart, rfl⟩ := List.mem_map.1 (List.mem_filter.1 hentry).1
  exact not_mem_type_ofEntry fun hmem =>
    Text.not_mem_of_mem_splitAt hpart (Text.mem_of_mem_trim hmem)

end Component.PropDefinition

namespace Manifest

/-- A character that identifiers begin with. -/
def beginsIdentifier (c : Char) : Bool := c.isAlpha || c == '_' || c == '$'

def isIdentifierChar (c : Char) : Bool := beginsIdentifier c || c.isDigit

/-- A letter, an underscore or a dollar sign, and behind it digits too. -/
def isIdentifier (name : String) : Bool :=
  match name.toList with
  | [] => false
  | c :: cs => beginsIdentifier c && cs.all isIdentifierChar

theorem isIdentifierChar_of_mem {name : String} (h : isIdentifier name = true)
    {c : Char} (hc : c ∈ name.toList) : isIdentifierChar c = true := by
  rw [isIdentifier] at h
  cases hname : name.toList with
  | nil => simp [hname] at hc
  | cons d ds =>
      simp only [hname, Bool.and_eq_true, List.all_eq_true] at h
      rw [hname, List.mem_cons] at hc
      rcases hc with rfl | hc
      · rw [isIdentifierChar, h.1, Bool.true_or]
      · exact h.2 c hc

theorem isBlank_of_isIdentifierChar {c : Char} (h : isIdentifierChar c = true) :
    Text.isBlank c = false := by
  have hbounds : 36 ≤ c.toNat ∧ c.toNat ≤ 122 := by
    simp only [isIdentifierChar, beginsIdentifier, Char.isAlpha, Char.isUpper,
      Char.isLower, Char.isDigit, Bool.or_eq_true, Bool.and_eq_true,
      decide_eq_true_eq, ge_iff_le, UInt32.le_iff_toNat_le, beq_iff_eq] at h
    rcases h with (((h | h) | rfl) | rfl) | h
    · simp at h; omega
    · simp at h; omega
    · decide
    · decide
    · simp at h; omega
  simp only [Text.isBlank, Text.inRanges, Text.blankRanges, List.any_cons,
    List.any_nil, Bool.or_eq_false_iff, Bool.and_eq_false_iff,
    decide_eq_false_iff_not, and_true]
  omega

namespace PropEntry

/-- An entry with an identifier for a name, and with a type that has no blanks
at its ends. -/
structure IsDeclared (p : PropEntry) : Prop where
  name : isIdentifier p.name = true
  type_ne : p.type ≠ ""
  type_trimmed : Text.isTrimmed p.type = true

def definition (p : PropEntry) : Scaffold.Component.PropDefinition :=
  ⟨p.name, p.type, p.required == some false⟩

/-- What stands in front of the colon of an entry. -/
def label (p : PropEntry) : String :=
  p.name ++ if p.required = some false then "?" else ""

theorem toList_text (p : PropEntry) :
    p.text.toList = p.label.toList ++ ':' :: p.type.toList := by
  rw [text, label]
  simp

variable {p : PropEntry}

/-- A label is an identifier with no more than a question mark behind it. -/
theorem IsDeclared.label_char (h : p.IsDeclared) {c : Char}
    (hc : c ∈ p.label.toList) : isIdentifierChar c = true ∨ c = '?' := by
  rw [label, String.toList_append, List.mem_append] at hc
  rcases hc with hname | hmark
  · exact .inl (isIdentifierChar_of_mem h.name hname)
  · split at hmark
    · exact .inr (by simpa using hmark)
    · simp at hmark

theorem IsDeclared.isTrimmed_label (h : p.IsDeclared) :
    Text.isTrimmed p.label = true := by
  refine Text.isTrimmed_of_forall fun c hc => ?_
  rcases h.label_char hc with hname | rfl
  · exact isBlank_of_isIdentifierChar hname
  · decide

theorem IsDeclared.not_mem_label (h : p.IsDeclared) {c : Char}
    (hc : c = ',' ∨ c = ':') : c ∉ p.label.toList := by
  intro hmem
  rcases h.label_char hmem with hname | rfl
  · rcases hc with rfl | rfl <;> exact absurd hname (by decide)
  · rcases hc with h | h <;> exact absurd h (by decide)

theorem IsDeclared.cutAtColon_text (h : p.IsDeclared) :
    Component.PropDefinition.cutAtColon p.text.toList =
      (p.label.toList, p.type.toList) := by
  have hname : p.text.toList.takeWhile (· != ':') = p.label.toList := by
    rw [toList_text, List.takeWhile_append_of_pos,
      List.takeWhile_cons_of_neg (by decide), List.append_nil]
    intro c hc
    exact bne_iff_ne.2 fun heq => h.not_mem_label (.inr heq) hc
  rw [Component.PropDefinition.cutAtColon, hname, toList_text]
  simp [List.drop_append]

/-- Only the mark of an optional prop is a question mark at the end of its
label. -/
theorem IsDeclared.getLast?_label (h : p.IsDeclared) :
    (p.label.toList.getLast? == some '?') = (p.required == some false) := by
  by_cases hoptional : p.required = some false
  · simp [label, hoptional]
  · have hlast : p.name.toList.getLast? ≠ some '?' := by
      intro hmark
      have hchar := isIdentifierChar_of_mem h.name (List.mem_of_getLast? hmark)
      exact absurd hchar (by decide)
    rw [label, if_neg hoptional, String.append_empty,
      beq_eq_false_iff_ne.2 hlast, beq_eq_false_iff_ne.2 hoptional]

/-- Whatever the type, an entry that is read on its own is the prop that it
declares. -/
theorem IsDeclared.ofEntry_text (h : p.IsDeclared) :
    Component.PropDefinition.ofEntry p.text = p.definition := by
  have hchildren : p.text ≠ "children" := by
    intro heq
    have hcolon : ':' ∈ p.text.toList := by
      rw [toList_text]
      simp
    rw [heq] at hcolon
    exact absurd hcolon (by decide)
  have htype : p.type.isEmpty = false := by simpa using h.type_ne
  rw [Component.PropDefinition.ofEntry, if_neg hchildren, h.cutAtColon_text]
  simp only [String.ofList_toList, Text.trim_of_isTrimmed h.isTrimmed_label,
    Text.trim_of_isTrimmed h.type_trimmed, h.getLast?_label, htype, definition]
  by_cases hoptional : p.required = some false
  · simp [label, hoptional]
  · simp [label, hoptional]

theorem IsDeclared.isTrimmed_text (h : p.IsDeclared) :
    Text.isTrimmed p.text = true := by
  have htext : p.text = p.label ++ ":" ++ p.type := rfl
  rw [htext]
  exact Text.isTrimmed_append
    (Text.isTrimmed_append h.isTrimmed_label (by decide)) h.type_trimmed

/-- An entry without a comma in its type is read as one prop. -/
theorem IsDeclared.ofEntries_text (h : p.IsDeclared)
    (hcomma : ',' ∉ p.type.toList) :
    Component.PropDefinition.ofEntries p.text = [p.definition] := by
  have hentry : ',' ∉ p.text.toList := by
    rw [toList_text, List.mem_append, List.mem_cons]
    rintro (hlabel | hcolon | htype)
    · exact h.not_mem_label (.inl rfl) hlabel
    · exact absurd hcolon (by decide)
    · exact hcomma htype
  have hne : p.text ≠ "" := by
    intro heq
    have hnil := congrArg String.toList heq
    rw [toList_text] at hnil
    simp at hnil
  rw [Component.PropDefinition.ofEntries_of_not_mem hentry h.isTrimmed_text hne,
    h.ofEntry_text]

end PropEntry

/-- The props that a component reads from a request are the ones that the
manifest declares, one for one and in their order, exactly if no type has a
comma. -/
theorem ofEntries_request_iff (c : Manifest.Component) (defaults : Defaults)
    (o : Overrides) (h : ∀ p ∈ c.props, p.IsDeclared) :
    Component.PropDefinition.ofEntries (c.request defaults o).props =
        c.props.map PropEntry.definition ↔
      ∀ p ∈ c.props, ',' ∉ p.type.toList := by
  have hprops : (c.request defaults o).props =
      Text.join "," (c.props.map PropEntry.text) := rfl
  rw [hprops, Component.PropDefinition.ofEntries_join, List.flatMap_map]
  constructor
  · intro heq p hp
    have hread : p.definition ∈
        c.props.flatMap fun p => Component.PropDefinition.ofEntries p.text := by
      rw [heq]
      exact List.mem_map_of_mem hp
    obtain ⟨q, -, hmem⟩ := List.mem_flatMap.1 hread
    exact Component.PropDefinition.not_mem_type_of_mem_ofEntries hmem
  · intro hcomma
    have hone : ∀ p ∈ c.props,
        Component.PropDefinition.ofEntries p.text =
          [p.definition] := fun p hp =>
      (h p hp).ofEntries_text (hcomma p hp)
    rw [List.flatMap_congr hone]
    exact List.map_eq_flatMap.symm

namespace PropsWitness

/-- A component with a node and an optional callback, whose type has a colon and
a question mark. -/
def dialog : Manifest.Component where
  name := "Dialog"
  output := ⟨"src/ui", none⟩
  props := [⟨"on_close2", "(cause?: string) => void", some false⟩,
    ⟨"$el", "React.ReactNode", none⟩]

theorem isDeclared_dialog : ∀ p ∈ dialog.props, p.IsDeclared := by
  intro p hp
  simp only [dialog, List.mem_cons, List.not_mem_nil, or_false] at hp
  rcases hp with rfl | rfl
  · exact ⟨by decide, by decide, by decide⟩
  · exact ⟨by decide, by decide, by decide⟩

/-- Colons, question marks and blanks within types survive. -/
theorem ofEntries_request_dialog :
    (∀ p ∈ dialog.props, p.IsDeclared) ∧
      Component.PropDefinition.ofEntries (dialog.request {} {}).props =
        [⟨"on_close2", "(cause?: string) => void", true⟩,
          ⟨"$el", "React.ReactNode", false⟩] :=
  ⟨isDeclared_dialog,
    (ofEntries_request_iff dialog {} {} isDeclared_dialog).2 (by decide)⟩

/-- A component with a type of two arguments. -/
def table : Manifest.Component where
  name := "Table"
  output := ⟨"src/ui", none⟩
  props := [⟨"rows", "Record<string, number>", none⟩]

/-- The comma between the arguments of a type cuts its prop in two. -/
theorem ofEntries_request_cut_at_comma :
    (∀ p ∈ table.props, p.IsDeclared) ∧
      table.props.map PropEntry.definition =
        [⟨"rows", "Record<string, number>", false⟩] ∧
      Component.PropDefinition.ofEntries (table.request {} {}).props =
        [⟨"rows", "Record<string", false⟩, ⟨"number>", "any", false⟩] := by
  refine ⟨fun p hp => ?_, by decide, by decide +kernel⟩
  obtain rfl : p = ⟨"rows", "Record<string, number>", none⟩ := by
    simpa [table] using hp
  exact ⟨by decide, by decide, by decide⟩

end PropsWitness

end Manifest

end Scaffold
