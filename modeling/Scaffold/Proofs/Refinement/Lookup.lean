import Scaffold.ImplicitTags
import Scaffold.Proofs.Entries
import Scaffold.Proofs.Text.Lowercase
/-!
The table of implied tags over a run of insertions.  Insertions and look-ups put
the parent in lower case, so what was inserted last for a parent counts in any
letter case.  The entries that a table is made of are taken as they are, so one
whose parent has a capital letter is as if it were not there. Main statement:
`lookup_insertAll`.
-/
namespace Scaffold.ImplicitTags

open Entries

/-- The table after child tags of some parents were set one after the other. -/
def insertAll (table : ImplicitTags) (inserts : List (String × String)) :
    ImplicitTags :=
  inserts.foldl (fun table p => table.insert p.1 p.2) table

/-- The child of the first pair with a given parent in any letter case. -/
def first? (pairs : List (String × String)) (parent : String) : Option String :=
  (pairs.find? fun p => Text.sameIgnoringCase p.1 parent).map (·.2)

theorem first?_cons (own child : String) (rest : List (String × String))
    (parent : String) :
    first? ((own, child) :: rest) parent =
      if Text.sameIgnoringCase own parent = true then some child
        else first? rest parent := by
  rw [first?, first?, List.find?_cons]
  by_cases hsame : Text.sameIgnoringCase own parent = true <;> simp [hsame]

/-- The entries whose parents are in lower case. -/
def lowercased (entries : List (String × String)) : List (String × String) :=
  entries.filter fun p => Text.isLowercase p.1

theorem entries_insertAll (table : ImplicitTags)
    (inserts : List (String × String)) :
    (table.insertAll inserts).entries =
      putAll table.entries (inserts.map fun p =>
        (Text.lowercase p.1, p.2)) := by
  induction inserts generalizing table with
  | nil => rfl
  | cons p inserts ih =>
      have hstep : table.insertAll (p :: inserts) =
          (table.insert p.1 p.2).insertAll inserts := rfl
      rw [hstep, ih, List.map_cons, putAll_cons]
      rfl

/-- The entry of a table that decides is the first one with the lower-case form
of the parent. -/
theorem lookup_ofEntries (entries : List (String × String)) (parent : String) :
    entries.lookup (Text.lowercase parent) =
      first? (lowercased entries) parent := by
  induction entries with
  | nil => rfl
  | cons entry rest ih =>
      obtain ⟨own, child⟩ := entry
      have hown : own = Text.lowercase parent ↔ _ := Text.eq_lowercase_iff
      rw [lookup_cons, ih, lowercased, lowercased, List.filter_cons]
      by_cases hlow : Text.isLowercase own = true
      · rw [if_pos hlow, first?_cons]
        by_cases hsame : Text.sameIgnoringCase own parent = true
        · rw [if_pos (hown.2 ⟨hlow, hsame⟩).symm, if_pos hsame]
        · rw [if_neg fun h => hsame (hown.1 h.symm).2, if_neg hsame]
      · rw [if_neg hlow, if_neg fun h => hlow (hown.1 h.symm).1]

/-- Of what was inserted, the first one for the parent in any letter case is
found. -/
theorem lookup_inserted (inserts : List (String × String)) (parent : String) :
    (inserts.map fun p => (Text.lowercase p.1, p.2)).lookup
      (Text.lowercase parent) =
      first? inserts parent := by
  induction inserts with
  | nil => rfl
  | cons p inserts ih =>
      rw [List.map_cons, lookup_cons, ih, first?_cons]
      have hown := Text.sameIgnoringCase_iff (s := p.1) (t := parent)
      by_cases hsame : Text.lowercase p.1 = Text.lowercase parent
      · rw [if_pos hsame.symm, if_pos (hown.2 hsame)]
      · rw [if_neg (Ne.symm hsame), if_neg fun h => hsame (hown.1 h)]

/-- A parent has the child that was inserted last for it in any letter case, or
else that of the first entry of the table for it in any letter case, of those in
lower case.  So a table whose entries are in lower case does not tell apart
letter cases at all.  For ASCII names, letter case is that of the ASCII
letters. -/
theorem lookup_insertAll (entries inserts : List (String × String))
    (parent : String) :
    ((ofEntries entries).insertAll inserts).lookup parent =
        (first? inserts.reverse parent).or
          (first? (lowercased entries) parent) ∧
      ((∀ p ∈ entries, Text.isLowercase p.1 = true) →
        ((ofEntries entries).insertAll inserts).lookup parent =
          (first? inserts.reverse parent).or (first? entries parent)) ∧
      ∀ name, Text.IsAscii name → Text.IsAscii parent →
        Text.sameIgnoringCase name parent =
          Text.equalIgnoringAsciiCase name parent := by
  have hlookup : ((ofEntries entries).insertAll inserts).lookup parent =
      (first? inserts.reverse parent).or
        (first? (lowercased entries) parent) := by
    rw [lookup, entries_insertAll, lookup_putAll, ← List.map_reverse,
      lookup_inserted]
    exact congrArg _ (lookup_ofEntries entries parent)
  refine ⟨hlookup, fun hlow => ?_, fun name => Text.sameIgnoringCase_of_isAscii⟩
  have hall : lowercased entries = entries := List.filter_eq_self.2 hlow
  rw [hlookup, hall]

namespace LookupWitness

/-- Insertions for lists, in several letter cases. -/
def lists : List (String × String) := [("DL", "dt"), ("Ul", "p"), ("dl", "dd")]

theorem lookup_insertAll_list :
    (∀ p ∈ html.entries, Text.isLowercase p.1 = true) ∧ Text.IsAscii "DL" ∧
    Text.IsAscii "Dl" ∧
      (html.insertAll lists).lookup "Dl" =
        (first? lists.reverse "Dl").or (first? html.entries "Dl") ∧
      (html.insertAll lists).lookup "Dl" = some "dd" ∧
      Text.sameIgnoringCase "DL" "Dl" =
        Text.equalIgnoringAsciiCase "DL" "Dl" := by
  have hlow : ∀ p ∈ html.entries, Text.isLowercase p.1 = true := by
    decide +kernel
  have hname : Text.IsAscii "DL" := by decide
  have hparent : Text.IsAscii "Dl" := by decide
  obtain ⟨-, hlookup, hsame⟩ := lookup_insertAll html.entries lists "Dl"
  exact ⟨hlow, hname, hparent, hlookup hlow, by decide +kernel,
    hsame "DL" hname hparent⟩

/-- An entry whose parent has a capital letter is not found, whatever the letter
case of what is looked up. -/
theorem capital_entry_not_found :
    (Text.IsAscii "UL" ∧ Text.IsAscii "ul") ∧
      first? [("UL", "li")] "ul" = some "li" ∧
      ((ofEntries [("UL", "li")]).insertAll []).lookup "ul" = none ∧
      ((ofEntries [("UL", "li")]).insertAll []).lookup "UL" = none := by
  decide +kernel

end LookupWitness

end Scaffold.ImplicitTags
