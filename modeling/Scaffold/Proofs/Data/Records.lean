import Mathlib.Data.List.Forall2
import Scaffold.Manifest.Reading
/-!
Fields of records against entries of tables.  A record is read from the entries
of a table at once, while a look-up finds the first entry of one name; where
both find something, they find the same. Values without tags and without
undecided words are what they are read as.
-/
namespace Scaffold

theorem forall₂_of_mapM {α β : Type} {f : α → Option β} {xs : List α}
    {ys : List β} (h : xs.mapM f = some ys) :
    List.Forall₂ (fun x y => f x = some y) xs ys := by
  induction xs generalizing ys with
  | nil =>
      obtain rfl : [] = ys := Option.some.inj h
      exact .nil
  | cons x xs ih =>
      rw [List.mapM_cons] at h
      obtain ⟨y, hy, h⟩ := Option.bind_eq_some_iff.1 h
      obtain ⟨rest, hrest, h⟩ := Option.bind_eq_some_iff.1 h
      obtain rfl : y :: rest = ys := Option.some.inj h
      exact .cons hy (ih hrest)

theorem exists_mem_of_mapM {α β : Type} {f : α → Option β} {xs : List α}
    {ys : List β} (h : xs.mapM f = some ys) {x : α} (hx : x ∈ xs) :
    ∃ y ∈ ys, f x = some y := by
  have hall := forall₂_of_mapM h
  clear h
  induction hall with
  | nil => cases hx
  | @cons a b as bs hb _ ih =>
      rcases List.mem_cons.1 hx with rfl | hrest
      · exact ⟨b, List.mem_cons_self, hb⟩
      · obtain ⟨y, hy, hread⟩ := ih hrest
        exact ⟨y, List.mem_cons_of_mem b hy, hread⟩

namespace Data

mutual

/-- A value without tags and without undecided words, down to the keys of its
tables. -/
def isDecided : Data → Bool
  | word _ | tagged _ _ => false
  | list items => areDecided items
  | table entries => entriesAreDecided entries
  | null | bool _ | int _ | float _ | text _ => true

def areDecided : List Data → Bool
  | [] => true
  | d :: items => isDecided d && areDecided items

def entriesAreDecided : List (Data × Data) → Bool
  | [] => true
  | (k, v) :: entries => isDecided k && isDecided v && entriesAreDecided entries

end

variable {d v w : Data} {name : String}

theorem isDecided_of_mem {items : List Data} (h : areDecided items = true)
    (hd : d ∈ items) : d.isDecided = true := by
  induction items with
  | nil => cases hd
  | cons item items ih =>
      rw [areDecided, Bool.and_eq_true] at h
      rcases List.mem_cons.1 hd with rfl | hrest
      · exact h.1
      · exact ih h.2 hrest

theorem isDecided_of_mem_entries {entries : List (Data × Data)}
    {e : Data × Data} (h : entriesAreDecided entries = true)
    (he : e ∈ entries) : e.2.isDecided = true := by
  induction entries with
  | nil => cases he
  | cons entry entries ih =>
      obtain ⟨k, v⟩ := entry
      rw [entriesAreDecided, Bool.and_eq_true, Bool.and_eq_true] at h
      rcases List.mem_cons.1 he with rfl | hrest
      · exact h.1.2
      · exact ih h.2 hrest

theorem untag_of_isDecided (h : d.isDecided = true) : d.untag = d := by
  cases d with
  | tagged tag d => cases h
  | _ => rfl

/-- A value that is found stands in an entry with its name as the key. -/
theorem exists_mem_of_get? (h : d.get? name = some v) :
    ∃ entries, d.untag = table entries ∧ (text name, v) ∈ entries := by
  rw [get?] at h
  split at h
  · next entries htable =>
      obtain ⟨⟨k, v'⟩, hfound, rfl⟩ := Option.map_eq_some_iff.1 h
      have hkey := List.find?_some hfound
      cases k <;> simp at hkey
      obtain rfl := hkey
      exact ⟨entries, htable, List.mem_of_find?_eq_some hfound⟩
  · cases h

theorem isDecided_of_get? (hd : d.isDecided = true) (h : d.get? name = some v) :
    v.isDecided = true := by
  obtain ⟨entries, htable, hmem⟩ := exists_mem_of_get? h
  rw [untag_of_isDecided hd] at htable
  rw [htable, isDecided] at hd
  exact isDecided_of_mem_entries hd hmem

theorem eq_text_of_asText? (hd : d.isDecided = true) {s : String}
    (h : d.asText? = some s) : d = text s := by
  rw [asText?, untag_of_isDecided hd] at h
  cases d with
  | text t => exact congrArg text (Option.some.inj h)
  | word t => cases hd
  | _ => cases h

/-- What a record has in a field and a look-up finds is one and the same. -/
theorem eq_of_asRecord? {names : List String} {fields : List (Option Data)}
    (h : d.asRecord? .values false names = some fields)
    (hfield : (name, some v) ∈ names.zip fields) (hget : d.get? name = some w) :
    v = w := by
  obtain ⟨entries, htable, hentry⟩ := exists_mem_of_get? hget
  rw [asRecord?, htable] at h
  obtain ⟨keyed, hkeyed, hfields⟩ := Option.bind_eq_some_iff.1 h
  obtain ⟨entry, hmem, hread⟩ := exists_mem_of_mapM hkeyed hentry
  obtain rfl : (name, w) = entry := Option.some.inj hread
  have hlisted : (name, w) ∈ keyed.filter (·.1 == name) := by simp [hmem]
  have hone := List.forall₂_zip (forall₂_of_mapM hfields) hfield
  -- the field has the only entry of its name
  split at hone
  · cases hone
  · next only hfilter =>
      obtain rfl := Option.some.inj (Option.some.inj hone)
      rw [hfilter, List.mem_singleton] at hlisted
      exact (congrArg Prod.snd hlisted).symm
  · cases hone

end Data

end Scaffold
