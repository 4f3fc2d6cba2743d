import Mathlib
import Scaffold.Entries
import Scaffold.Proofs.Attribute.Merging
/-!
Runs of settings.  What was set last is what a name is looked up to, names stay
in the order in which they were first set, and settings that were collected
before, in which each name is left with its last text, come to the same as these
settings one by one.  Main statements: `lookup_putAll`, `map_fst_putAll`,
`putAll_putAll`.
-/
namespace Scaffold.Entries

variable {entries : List (String × String)}

/-- Entries with the texts of names set one after the other. -/
def putAll (entries pairs : List (String × String)) : List (String × String) :=
  pairs.foldl (fun entries p => put p.1 p.2 entries) entries

@[simp]
theorem putAll_nil (entries : List (String × String)) :
    putAll entries [] = entries := rfl

@[simp] theorem putAll_cons (entries : List (String × String))
    (p : String × String) (pairs : List (String × String)) :
    putAll entries (p :: pairs) = putAll (put p.1 p.2 entries) pairs := rfl

theorem putAll_append (entries pairs more : List (String × String)) :
    putAll entries (pairs ++ more) = putAll (putAll entries pairs) more :=
  List.foldl_append

/-- The last text of a name counts. -/
theorem lookup_putAll (name : String) (entries pairs : List (String × String)) :
    (putAll entries pairs).lookup name =
      (pairs.reverse.lookup name).or (entries.lookup name) := by
  induction pairs generalizing entries with
  | nil => rfl
  | cons p pairs ih =>
      rw [putAll_cons, ih, lookup_put, List.reverse_cons, List.lookup_append,
        Option.or_assoc, lookup_cons]
      by_cases hname : name = p.1 <;> simp [hname]

/-- Names that are new come behind the others, in the order in which they are
first set. -/
theorem map_fst_putAll (entries pairs : List (String × String)) :
    (putAll entries pairs).map Prod.fst =
      entries.map Prod.fst ++
        ((pairs.map Prod.fst).filter (· ∉ entries.map Prod.fst)).eraseDups := by
  induction pairs generalizing entries with
  | nil => simp
  | cons p pairs ih =>
      rw [putAll_cons, ih, map_fst_put, List.map_cons]
      by_cases hold : p.1 ∈ entries.map Prod.fst
      · rw [if_pos hold, List.filter_cons_of_neg (by simpa using hold)]
      · have hrest :
            (pairs.map Prod.fst).filter (· ∉ entries.map Prod.fst ++ [p.1]) =
            ((pairs.map Prod.fst).filter (· ∉ entries.map Prod.fst)).filter
              (!· == p.1) := by
          rw [List.filter_filter]
          apply List.filter_congr
          intro name _
          rw [Bool.eq_iff_iff]
          simp [and_comm]
        rw [if_neg hold, hrest, List.filter_cons_of_pos (by simpa using hold),
          List.eraseDups_cons, List.append_assoc]
        rfl

theorem nodup_map_fst_putAll_nil (pairs : List (String × String)) :
    ((putAll [] pairs).map Prod.fst).Nodup := by
  rw [map_fst_putAll]
  exact Attribute.nodup_eraseDups _

/-! ### Settings that were collected before -/

/-- A name that is there already can be set behind another one as well as in
front of it. -/
theorem put_comm {name other : String} (hne : name ≠ other)
    (hmem : name ∈ entries.map Prod.fst) (text more : String) :
    put name text (put other more entries) =
      put other more (put name text entries) := by
  induction entries with
  | nil => simp at hmem
  | cons entry rest ih =>
      obtain ⟨own, old⟩ := entry
      by_cases hown : own = name
      · have hother : own ≠ other := hown ▸ hne
        simp [put, hown, hne]
      · have hrest : name ∈ rest.map Prod.fst := by
          simpa [Ne.symm hown] using hmem
        by_cases hother : own = other
        · simp [put, hother, Ne.symm hne]
        · simp [put, hown, hother, ih hrest]

theorem put_put (name text more : String) (entries : List (String × String)) :
    put name text (put name more entries) = put name text entries := by
  induction entries with
  | nil => simp [put]
  | cons entry rest ih =>
      obtain ⟨own, old⟩ := entry
      by_cases hown : own = name <;> simp [put, hown, ih]

theorem mem_map_fst_put (name text : String)
    (entries : List (String × String)) :
    name ∈ (put name text entries).map Prod.fst := by
  rw [map_fst_put]
  split <;> simp [*]

/-- A name that is there already can be set behind settings of other names. -/
theorem put_putAll_comm {name text : String} {pairs : List (String × String)}
    (hmem : name ∈ entries.map Prod.fst) (hnew : name ∉ pairs.map Prod.fst) :
    put name text (putAll entries pairs) =
      putAll (put name text entries) pairs := by
  induction pairs generalizing entries with
  | nil => rfl
  | cons p pairs ih =>
      obtain ⟨hne, hrest⟩ : name ≠ p.1 ∧ name ∉ pairs.map Prod.fst := by
        simpa using hnew
      have hstill : name ∈ (put p.1 p.2 entries).map Prod.fst := by
        rw [map_fst_put]
        split <;> simp [hmem]
      rw [putAll_cons, putAll_cons, ih hstill hrest, put_comm hne hmem]

/-- To set a name in a collection is to set it behind the collection. -/
theorem putAll_put (name text : String) {pairs : List (String × String)}
    (hdistinct : (pairs.map Prod.fst).Nodup)
    (entries : List (String × String)) :
    putAll entries (put name text pairs) =
      put name text (putAll entries pairs) := by
  induction pairs generalizing entries with
  | nil => rfl
  | cons p pairs ih =>
      obtain ⟨own, old⟩ := p
      obtain ⟨hnew, hrest⟩ := List.nodup_cons.1 hdistinct
      by_cases hown : own = name
      · subst hown
        rw [put, if_pos rfl, putAll_cons, putAll_cons,
          put_putAll_comm (mem_map_fst_put own old entries) hnew, put_put]
      · rw [put, if_neg hown, putAll_cons, putAll_cons, ih hrest]

/-- Settings may be collected first. -/
theorem putAll_putAll (entries pairs : List (String × String)) :
    putAll entries (putAll [] pairs) = putAll entries pairs := by
  induction pairs using List.reverseRecOn with
  | nil => rfl
  | append_singleton pairs p ih =>
      have hlast : ∀ start, putAll start (pairs ++ [p]) =
          put p.1 p.2 (putAll start pairs) :=
        fun start => putAll_append start pairs [p]
      rw [hlast, hlast, putAll_put p.1 p.2 (nodup_map_fst_putAll_nil pairs), ih]

end Scaffold.Entries
