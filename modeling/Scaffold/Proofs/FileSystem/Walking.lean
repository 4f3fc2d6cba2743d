import Mathlib.Data.List.Basic
import Mathlib.Data.List.Induction
import Scaffold.FileSystem.Tree
import Scaffold.Path
import Scaffold.Proofs.Text.Split
/-!
Walking a tree of files.  In a tree everything stands in a directory and has a
name that a path can have as a step.  So the absolute path of a place leads
there, and a path that leads anywhere leads to something that is there.  Main
statements: `find?_pathOf`, `isSome_of_locate`.
-/
namespace Scaffold.FileTree

/-- What can be the name of an entry: one step of a path that is not too
long. -/
structure IsName (name : String) : Prop where
  nonempty : name ≠ ""
  ne_dot : name ≠ "."
  ne_dots : name ≠ ".."
  noSlash : '/' ∉ name.toList
  size : name.utf8ByteSize ≤ maxNameSize

/-- A tree: what is there has a name and stands in a directory, and relative
paths start in one. -/
structure IsTree (t : FileTree) : Prop where
  isName : ∀ place name, (t.entry? (place ++ [name])).isSome = true →
    IsName name
  isDirectory : ∀ place name, (t.entry? (place ++ [name])).isSome = true →
    t.isDirectory place = true
  working : t.isDirectory t.workingDirectory = true

instance (name : String) : Decidable (IsName name) :=
  decidable_of_iff (name ≠ "" ∧ name ≠ "." ∧ name ≠ ".." ∧ '/' ∉ name.toList ∧
      name.utf8ByteSize ≤ maxNameSize)
    ⟨fun ⟨h₁, h₂, h₃, h₄, h₅⟩ => ⟨h₁, h₂, h₃, h₄, h₅⟩,
      fun ⟨h₁, h₂, h₃, h₄, h₅⟩ => ⟨h₁, h₂, h₃, h₄, h₅⟩⟩

/-! ### Paths of places -/

section Paths

variable {place : List String} {name : String}

theorem pathOf_singleton (name : String) : pathOf [name] = "/" ++ name := rfl

theorem pathOf_concat (hne : place ≠ []) (name : String) :
    pathOf (place ++ [name]) = pathOf place ++ "/" ++ name := by
  rw [pathOf, Text.join_concat hne, pathOf]
  simp only [String.append_assoc]

/-- A path does not end in a slash if it ends in a name. -/
theorem getLast?_append_name (hname : IsName name) (path : String) :
    (path ++ name).toList.getLast? ≠ some '/' := by
  have hne : name.toList ≠ [] := by simpa using hname.nonempty
  rw [String.toList_append, List.getLast?_append,
    List.getLast?_eq_some_getLast hne, Option.some_or]
  intro hlast
  exact hname.noSlash (Option.some.inj hlast ▸ List.getLast_mem hne)

theorem getLast?_pathOf (hne : place ≠ []) (h : ∀ name ∈ place, IsName name) :
    (pathOf place).toList.getLast? ≠ some '/' := by
  induction place using List.reverseRecOn with
  | nil => exact absurd rfl hne
  | append_singleton place name _ =>
      have hname := h name (by simp)
      by_cases hplace : place = []
      · rw [hplace, List.nil_append, pathOf_singleton]
        exact getLast?_append_name hname "/"
      · rw [pathOf_concat hplace]
        exact getLast?_append_name hname _

theorem stepsOf_pathOf (h : ∀ name ∈ place, IsName name) :
    stepsOf (pathOf place) = place := by
  have hsteps : ∀ s, Text.splitAt ("/" ++ s) '/' =
      "" :: Text.splitAt s '/' := fun s =>
    Text.splitAt_append "" s '/'
  rw [stepsOf, pathOf, hsteps]
  by_cases hplace : place = []
  · rw [hplace]
    rfl
  · have hparts : place.flatMap (Text.splitAt · '/') = place := by
      have hsingle := List.flatMap_congr fun name hname =>
        Text.splitAt_of_not_mem (h name hname).noSlash
      rwa [List.flatMap_singleton'] at hsingle
    have hjoin := Text.splitAt_join hplace '/'
    rw [hparts] at hjoin
    change (("" :: Text.splitAt (Text.join (String.singleton '/') place)
      '/').filter _) = _
    rw [hjoin, List.filter_cons_of_neg (by simp), List.filter_eq_self]
    exact fun name hname => by simpa using (h name hname).nonempty

/-- The path of an entry, from the path of its directory. -/
theorem join_pathOf (h : ∀ name ∈ place, IsName name) (hname : IsName name) :
    Path.join (pathOf place) name = pathOf (place ++ [name]) := by
  have hrelative : Path.isAbsolute name = false := by
    rw [Path.isAbsolute, beq_eq_false_iff_ne]
    exact fun hhead => hname.noSlash (List.mem_of_head? hhead)
  have hpath : (pathOf place).isEmpty = false := by simp [pathOf]
  rw [Path.join, hrelative, hpath, Bool.or_false, if_neg Bool.false_ne_true]
  by_cases hplace : place = []
  · rw [hplace]
    rfl
  · rw [if_neg (by simpa using getLast?_pathOf hplace h), pathOf_concat hplace]

end Paths

/-! ### Walking -/

section Walking

variable {t : FileTree}

theorem isSome_of_isDirectory {place : List String}
    (h : t.isDirectory place = true) : (t.entry? place).isSome = true := by
  rw [FileTree.isDirectory, beq_iff_eq] at h
  rw [h]
  rfl

/-- A step with a name leads to the entry of that name. -/
theorem step_eq_ok_iff {place next : List String} {name : String}
    (hname : IsName name) :
    t.step place name = .ok next ↔ t.isDirectory place = true ∧
      (t.entry? (place ++ [name])).isSome = true ∧ place ++ [name] = next := by
  rw [step, if_neg hname.ne_dot, if_neg hname.ne_dots,
    if_neg (Nat.not_lt.2 hname.size)]
  cases t.isDirectory place <;>
    cases (t.entry? (place ++ [name])).isSome <;> simp

theorem walk_append (t : FileTree) (place names more : List String) :
    t.walk place (names ++ more) =
      (t.walk place names).bind (t.walk · more) := by
  induction names generalizing place with
  | nil => rfl
  | cons name names ih =>
      rw [List.cons_append, walk, walk]
      cases t.step place name with
      | error fault => rfl
      | ok next => exact ih next

/-- Names lead nowhere but down. -/
theorem eq_append_of_walk {place names last : List String}
    (hnames : ∀ name ∈ names, IsName name) (h : t.walk place names = .ok last) :
    last = place ++ names := by
  induction names generalizing place with
  | nil =>
      rw [walk] at h
      rw [List.append_nil, Except.ok.inj h]
  | cons name names ih =>
      rw [List.forall_mem_cons] at hnames
      rw [walk] at h
      split at h
      · cases h
      · next next hnext =>
          obtain ⟨-, -, rfl⟩ := (step_eq_ok_iff hnames.1).1 hnext
          rw [ih hnames.2 h, List.append_assoc]
          rfl

namespace IsTree

variable (ht : t.IsTree)
include ht

/-- All the names on the way to something that is there are names. -/
theorem forall_isName {place : List String}
    (h : (t.entry? place).isSome = true) : ∀ name ∈ place, IsName name := by
  induction place using List.reverseRecOn with
  | nil => simp
  | append_singleton place name ih =>
      have habove := ih (isSome_of_isDirectory (ht.isDirectory place name h))
      intro other hother
      rcases List.mem_append.1 hother with hother | hother
      · exact habove other hother
      · rw [List.mem_singleton.1 hother]
        exact ht.isName place name h

theorem isSome_dropLast {place : List String}
    (h : (t.entry? place).isSome = true) :
    (t.entry? place.dropLast).isSome = true := by
  induction place using List.reverseRecOn with
  | nil => exact h
  | append_singleton place name _ =>
      rw [List.dropLast_concat]
      exact isSome_of_isDirectory (ht.isDirectory place name h)

/-- A step leads to something that is there. -/
theorem isSome_of_step {place next : List String} {name : String}
    (hplace : (t.entry? place).isSome = true)
    (h : t.step place name = .ok next) : (t.entry? next).isSome = true := by
  rw [step] at h
  split at h
  · cases h
  · split at h
    · exact Except.ok.inj h ▸ hplace
    · split at h
      · exact Except.ok.inj h ▸ ht.isSome_dropLast hplace
      · split at h
        · cases h
        · split at h
          · next hthere => exact Except.ok.inj h ▸ hthere
          · cases h

theorem isSome_of_walk {place names last : List String}
    (hplace : (t.entry? place).isSome = true)
    (h : t.walk place names = .ok last) : (t.entry? last).isSome = true := by
  induction names generalizing place with
  | nil => exact Except.ok.inj h ▸ hplace
  | cons name names ih =>
      rw [walk] at h
      split at h
      · cases h
      · next next hnext => exact ih (ht.isSome_of_step hplace hnext) h

/-- Walking down from the root leads to whatever is there. -/
theorem walk_nil {place : List String} (h : (t.entry? place).isSome = true) :
    t.walk [] place = .ok place := by
  induction place using List.reverseRecOn with
  | nil => rfl
  | append_singleton place name ih =>
      have hdirectory := ht.isDirectory place name h
      have hstep :=
        (step_eq_ok_iff (ht.isName place name h)).2 ⟨hdirectory, h, rfl⟩
      rw [walk_append, ih (isSome_of_isDirectory hdirectory)]
      change t.walk place [name] = _
      rw [walk, hstep]
      rfl

/-- A path that leads anywhere leads to something that is there. -/
theorem isSome_of_locate {path : String} {place : List String}
    (h : t.locate path = .ok place) : (t.entry? place).isSome = true := by
  have hstart : (t.entry? (t.startOf path)).isSome = true := by
    rw [startOf]
    split
    · rfl
    · exact isSome_of_isDirectory ht.working
  rw [locate] at h
  split at h
  · cases h
  · exact ht.isSome_of_walk hstart h

/-- The path of a place leads to what is there, if anything is. -/
theorem find?_pathOf {place : List String} (h : ∀ name ∈ place, IsName name) :
    t.find? (pathOf place) = t.entry? place := by
  have hslash : t.startOf (pathOf place) = [] := by
    rw [startOf, if_pos]
    simp [pathOf]
  have hlocate : t.locate (pathOf place) = t.walk [] place := by
    have hpath : (pathOf place).isEmpty = false := by simp [pathOf]
    rw [locate, hpath, if_neg Bool.false_ne_true, hslash, stepsOf_pathOf h]
    by_cases hplace : place = []
    · rw [hplace]
      rfl
    · have hends : endsInSlash (pathOf place) = false := by
        rw [endsInSlash, beq_eq_false_iff_ne]
        exact getLast?_pathOf hplace h
      rw [hends, if_neg Bool.false_ne_true, List.append_nil]
  rw [find?, hlocate]
  cases hentry : t.entry? place with
  | some entry =>
      rw [ht.walk_nil (by rw [hentry]; rfl)]
      exact hentry
  | none =>
      split
      · next last hlast =>
          rw [eq_append_of_walk h hlast]
          exact hentry
      · rfl

end IsTree

end Walking

end Scaffold.FileTree
