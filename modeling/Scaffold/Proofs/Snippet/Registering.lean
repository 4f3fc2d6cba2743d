import Scaffold.Proofs.Entries
import Scaffold.Proofs.Text.Split
import Scaffold.Snippet.Registry
/-!
Registries as ordered maps.  Whatever is registered comes down to a run of
settings, one for every name of every key, so a name has the body that it was
given last and the place at which it was first given one.  A registry that is
made on its own and then taken over loses bodies that it overwrote itself, but
these would have been overwritten anyway.  Main statement:
`registry_is_alias_map`.
-/
namespace Scaffold.Snippet.Registry

open Entries

/-- One step by which a registry grows: a pair of key and body, or a registry of
such pairs. -/
inductive Change
  | insert (key body : String)
  | extend (pairs : List (String × String))
  deriving DecidableEq, Repr

namespace Change

def pairs : Change → List (String × String)
  | insert key body => [(key, body)]
  | extend pairs => pairs

end Change

/-- The registry after a step. -/
def apply (r : Registry) : Change → Registry
  | .insert key body => r.insert key body
  | .extend pairs => r.extend (ofPairs pairs)

/-- The registry after some steps. -/
def applyAll (r : Registry) (changes : List Change) : Registry :=
  changes.foldl apply r

/-- The names that a key stands for: the parts that were put together with bars
to make it, without blanks around them and without empty ones. -/
def HasNames (key : String) (names : List String) : Prop :=
  ∃ parts : List String, parts ≠ [] ∧ (∀ part ∈ parts, '|' ∉ part.toList) ∧
    Text.join "|" parts = key ∧ names = (parts.map Text.trim).filter (· ≠ "")

/-- The body of the last pair that has a name among those of its key. -/
def latest? (pairs : List (String × String)) (name : String) : Option String :=
  (pairs.reverse.find? fun p => name ∈ aliases p.1).map (·.2)

/-- A registry that maps the names of the keys of some pairs to their last
bodies. -/
structure IsAliasMap (pairs : List (String × String)) (r : Registry) :
    Prop where
  body : ∀ name, r.get? name = latest? pairs name
  /-- Every name is there, in the order in which they are first mentioned. -/
  keys : r.keys = (pairs.flatMap (aliases ·.1)).eraseDups
  /-- No name is there twice. -/
  distinct : r.keys.Nodup
  size : r.size = (pairs.flatMap (aliases ·.1)).eraseDups.length

/-! ### Names with their bodies -/

theorem aliases_join {parts : List String} (hne : parts ≠ [])
    (hbars : ∀ part ∈ parts, '|' ∉ part.toList) :
    aliases (Text.join "|" parts) = (parts.map Text.trim).filter (· ≠ "") := by
  have hsplit : Text.splitAt (Text.join "|" parts) '|' = parts := calc
    Text.splitAt (Text.join "|" parts) '|' =
      parts.flatMap (Text.splitAt · '|') :=
      Text.splitAt_join hne '|'
    _ = parts.flatMap ([·]) := List.flatMap_congr fun part hpart =>
      Text.splitAt_of_not_mem (hbars part hpart)
    _ = parts := List.flatMap_singleton' parts
  rw [aliases, hsplit]

/-- Every key has names, and they are what it is taken apart into. -/
theorem hasNames_iff {key : String} {names : List String} :
    HasNames key names ↔ aliases key = names := by
  constructor
  · rintro ⟨parts, hne, hbars, rfl, rfl⟩
    exact aliases_join hne hbars
  · rintro rfl
    exact ⟨Text.splitAt key '|', Text.splitAt_ne_nil key '|',
      fun _ => Text.not_mem_of_mem_splitAt, Text.join_splitAt key '|', rfl⟩

/-- A pair for every name of the keys. -/
def named (pairs : List (String × String)) : List (String × String) :=
  pairs.flatMap fun p => (aliases p.1).map (·, p.2)

theorem map_fst_named (pairs : List (String × String)) :
    (named pairs).map Prod.fst = pairs.flatMap (aliases ·.1) := by
  rw [named, List.map_flatMap]
  simp [Function.comp_def]

theorem lookup_reverse_map (name body : String) (names : List String) :
    (names.map (·, body)).reverse.lookup name = if name ∈ names then some body
      else none := by
  induction names with
  | nil => rfl
  | cons other names ih =>
      rw [List.map_cons, List.reverse_cons, List.lookup_append, ih, lookup_cons]
      obtain rfl | hname := eq_or_ne name other
      · by_cases hmem : name ∈ names <;> simp [hmem]
      · by_cases hmem : name ∈ names <;> simp [hname, hmem]

theorem lookup_reverse_named (pairs : List (String × String)) (name : String) :
    (named pairs).reverse.lookup name = latest? pairs name := by
  induction pairs using List.reverseRecOn with
  | nil => rfl
  | append_singleton pairs p ih =>
      have hnamed : named (pairs ++ [p]) = named pairs ++
          (aliases p.1).map (·, p.2) := by
        simp [named]
      rw [hnamed, List.reverse_append, List.lookup_append, ih,
        lookup_reverse_map, latest?, latest?, List.reverse_append,
        List.reverse_singleton, List.singleton_append, List.find?_cons]
      by_cases hmem : name ∈ aliases p.1 <;> simp [hmem]

/-! ### Registering -/

variable (r : Registry)

theorem entries_insert (key body : String) :
    (r.insert key body).entries =
      putAll r.entries ((aliases key).map (·, body)) := by
  rw [insert, putAll, List.foldl_map]

theorem entries_insertAll (pairs : List (String × String)) :
    (r.insertAll pairs).entries = putAll r.entries (named pairs) := by
  induction pairs generalizing r with
  | nil => rfl
  | cons p pairs ih =>
      have hstep : r.insertAll (p :: pairs) =
          (r.insert p.1 p.2).insertAll pairs := rfl
      have hnamed : named (p :: pairs) = (aliases p.1).map (·, p.2) ++
          named pairs := rfl
      rw [hstep, ih, entries_insert, hnamed, putAll_append]

theorem entries_ofPairs (pairs : List (String × String)) :
    (ofPairs pairs).entries = putAll [] (named pairs) :=
  entries_insertAll {} pairs

/-- Pairs may be collected in a registry of their own first. -/
theorem extend_ofPairs (pairs : List (String × String)) :
    r.extend (ofPairs pairs) = r.insertAll pairs := by
  have hentries : (r.extend (ofPairs pairs)).entries =
      (r.insertAll pairs).entries := by
    rw [entries_insertAll, ← putAll_putAll, ← entries_ofPairs]
    rfl
  exact congrArg Registry.mk hentries

theorem insertAll_append (pairs more : List (String × String)) :
    r.insertAll (pairs ++ more) = (r.insertAll pairs).insertAll more :=
  List.foldl_append

/-- One step registers its pairs. -/
theorem apply_eq_insertAll (change : Change) :
    r.apply change = r.insertAll change.pairs := by
  cases change with
  | insert key body => rfl
  | extend pairs => exact extend_ofPairs r pairs

/-- Some steps register their pairs one after the other. -/
theorem applyAll_eq_insertAll (changes : List Change) :
    r.applyAll changes = r.insertAll (changes.flatMap Change.pairs) := by
  induction changes generalizing r with
  | nil => rfl
  | cons change changes ih =>
      have hstep : r.applyAll (change :: changes) =
          (r.apply change).applyAll changes := rfl
      rw [hstep, ih, apply_eq_insertAll, List.flatMap_cons, insertAll_append]

theorem isAliasMap_ofPairs (pairs : List (String × String)) :
    IsAliasMap pairs (ofPairs pairs) := by
  have hkeys : (ofPairs pairs).keys =
      (pairs.flatMap (aliases ·.1)).eraseDups := by
    rw [Registry.keys, entries_ofPairs, map_fst_putAll, map_fst_named]
    simp
  refine ⟨fun name => ?_, hkeys, ?_, ?_⟩
  · rw [get?, entries_ofPairs, lookup_putAll, lookup_reverse_named,
      List.lookup_nil, Option.or_none]
  · rw [hkeys]
    exact Attribute.nodup_eraseDups _
  · rw [← hkeys, Registry.keys, List.length_map, size]

/-- A registry is a map from the names of all keys to the bodies that they were
given last, in the order in which names were first given one, where the names of
a key are its parts between bars; and to take over a registry of pairs is to
register these pairs. -/
theorem registry_is_alias_map :
    (∀ (key : String) (names : List String), HasNames key names ↔
      aliases key = names) ∧
    (∀ changes : List Change,
      IsAliasMap (changes.flatMap Change.pairs)
        (({} : Registry).applyAll changes)) ∧
    ∀ (r : Registry) (pairs : List (String × String)),
      r.extend (ofPairs pairs) = r.insertAll pairs := by
  refine ⟨fun _ _ => hasNames_iff, fun changes => ?_, extend_ofPairs⟩
  rw [applyAll_eq_insertAll]
  exact isAliasMap_ofPairs _

/-- A name keeps its place when it gets another body. -/
example :
    (({} : Registry).applyAll [.insert "a|b | c" "div",
      .extend [("c", "p"), ("d|", "i"), ("b", "q")]]).entries =
      [("a", "div"), ("b", "q"), ("c", "p"), ("d", "i")] := by
  decide +kernel

end Scaffold.Snippet.Registry
