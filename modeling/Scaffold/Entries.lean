/-!
Lists of names with a text each, in which a name is looked up from the front.
-/
namespace Scaffold.Entries

/-- Entries with the text of one name set: in place if the name is there, else
at the end. -/
def put (name text : String) : List (String × String) → List (String × String)
  | [] => [(name, text)]
  | (k, t) :: rest =>
    if k = name then (k, text) :: rest else (k, t) :: put name text rest

theorem lookup_cons (k name text : String) (rest : List (String × String)) :
    ((name, text) :: rest).lookup k = if k = name then some text
      else rest.lookup k := by
  by_cases hk : k = name
  · rw [List.lookup_cons, beq_iff_eq.2 hk, if_pos hk]
  · rw [List.lookup_cons, beq_eq_false_iff_ne.2 hk, if_neg hk]

section

variable (name text : String) (entries : List (String × String))

theorem lookup_put (k : String) :
    (put name text entries).lookup k = if k = name then some text
      else entries.lookup k := by
  induction entries with
  | nil => rw [put, lookup_cons]
  | cons entry rest ih =>
      obtain ⟨own, old⟩ := entry
      by_cases hown : own = name
      · rw [put, if_pos hown, lookup_cons, lookup_cons, hown]
        by_cases hk : k = name <;> simp [hk]
      · rw [put, if_neg hown, lookup_cons, lookup_cons, ih]
        by_cases hk : k = own <;> simp [hk, hown]

theorem map_fst_put :
    (put name text entries).map Prod.fst =
      if name ∈ entries.map Prod.fst then entries.map Prod.fst
      else entries.map Prod.fst ++ [name] := by
  induction entries with
  | nil => simp [put]
  | cons entry rest ih =>
      obtain ⟨own, old⟩ := entry
      by_cases hown : own = name
      · simp [put, hown]
      · rw [put, if_neg hown, List.map_cons, ih]
        by_cases hmem : name ∈ rest.map Prod.fst
        · simp [hmem]
        · simp [hmem, Ne.symm hown]

end

end Scaffold.Entries
