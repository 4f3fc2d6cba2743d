import Scaffold.Proofs.FileSystem.Walking
/-!
Trees of files stay trees.  Files are made and changed where a directory is to
hold them, directories are made one below the other, and a directory never
becomes a file.  Main statement: `isTree_foldl`.
-/
namespace Scaffold.FileTree

/-- What changes a tree of files. -/
inductive Change
  | write (path text : String)
  | create (path text : String)
  | makeDirectories (path : String)
  deriving DecidableEq, Repr

/-- The tree behind a change; one that is refused may have made directories. -/
def Change.apply (t : FileTree) : Change → FileTree
  | write path text => (commit t (t.write path text)).2
  | create path text => (commit t (t.create path text)).2
  | makeDirectories path => (t.makeDirectories path).1

variable {t : FileTree}

/-- A list of entries is a tree if each of them can be where it is. -/
theorem isTree_of_forall (h : ∀ entry ∈ t.entries, ∀ name ∈ entry.1.getLast?,
      IsName name ∧ t.isDirectory entry.1.dropLast = true)
    (working : t.isDirectory t.workingDirectory = true) : t.IsTree := by
  have hentry : ∀ place name, (t.entry? (place ++ [name])).isSome = true →
      IsName name ∧ t.isDirectory place = true := by
    intro place name hthere
    rw [FileTree.entry?, if_neg (by simp)] at hthere
    obtain ⟨entry, hlookup⟩ := Option.isSome_iff_exists.1 hthere
    obtain ⟨front, behind, hentries, -⟩ := List.lookup_eq_some_iff.1 hlookup
    have hmem : (place ++ [name], entry) ∈ t.entries := by simp [hentries]
    have hgood := h _ hmem name (by simp)
    rwa [List.dropLast_concat] at hgood
  exact ⟨fun place name hthere => (hentry place name hthere).1,
    fun place name hthere => (hentry place name hthere).2, working⟩

/-! ### Putting an entry somewhere -/

theorem lookup_filter_ne {place other : List String} (hne : other ≠ place)
    (entries : List (List String × FileEntry)) :
    (entries.filter (·.1 != place)).lookup other = entries.lookup other := by
  induction entries with
  | nil => rfl
  | cons entry entries ih =>
      rw [List.filter_cons, List.lookup_cons]
      split
      · rw [List.lookup_cons, ih]
      · next hentry =>
          have heq : entry.1 = place := by simpa using hentry
          rw [ih, heq, beq_eq_false_iff_ne.2 hne]

theorem entry?_put {place : List String} (hplace : place ≠ [])
    (entry : FileEntry) (other : List String) :
    FileTree.entry? (t.put place entry) other =
      if other = place then some entry else t.entry? other := by
  rw [FileTree.put, entry?, entry?, List.lookup_cons]
  by_cases hother : other = place
  · rw [if_neg (hother ▸ hplace), if_pos hother, hother, beq_self_eq_true]
  · rw [if_neg hother, beq_eq_false_iff_ne.2 hother, lookup_filter_ne hother]

section Putting

variable {place : List String} {name : String} {entry : FileEntry}

/-- Directories stay directories, unless one of them is replaced. -/
theorem isDirectory_put
    (hkeep : t.isDirectory (place ++ [name]) = true → entry = .directory)
    {other : List String} (h : t.isDirectory other = true) :
    (t.put (place ++ [name]) entry).isDirectory other = true := by
  rw [isDirectory, entry?_put (by simp)]
  split
  · next heq => rw [hkeep (heq ▸ h), beq_self_eq_true]
  · exact h

/-- An entry in a directory can be put there or replaced. -/
theorem IsTree.put (ht : t.IsTree) (hname : IsName name)
    (hplace : t.isDirectory place = true)
    (hkeep : t.isDirectory (place ++ [name]) = true → entry = .directory) :
    (t.put (place ++ [name]) entry).IsTree := by
  have hentry : ∀ above other,
      (FileTree.entry? (t.put (place ++ [name]) entry)
        (above ++ [other])).isSome = true →
      IsName other ∧ t.isDirectory above = true := by
    intro above other hthere
    rw [entry?_put (by simp)] at hthere
    split at hthere
    · next heq =>
        obtain ⟨rfl, rfl⟩ : above = place ∧ other = name := by simpa using heq
        exact ⟨hname, hplace⟩
    · exact ⟨ht.isName above other hthere, ht.isDirectory above other hthere⟩
  exact ⟨fun above other hthere => (hentry above other hthere).1,
    fun above other hthere => isDirectory_put hkeep
    (hentry above other hthere).2, isDirectory_put hkeep ht.working⟩

end Putting

/-! ### Operations -/

theorem noSlash_of_mem_stepsOf {path name : String} (h : name ∈ stepsOf path) :
    name ≠ "" ∧ '/' ∉ name.toList := by
  rw [stepsOf, List.mem_filter] at h
  exact ⟨by simpa using h.2, Text.not_mem_of_mem_splitAt h.1⟩

/-- A new file goes into a directory, under a name. -/
theorem exists_of_locateNew {path : String} {place : List String}
    {found : Option FileEntry} (h : t.locateNew path = .ok (place, found)) :
    found = some .directory ∨ ∃ above name, place = above ++ [name] ∧
    IsName name ∧
      t.isDirectory above = true ∧ found = t.entry? place := by
  rw [locateNew] at h
  split at h
  · split at h
    · cases h
    · cases h
      exact .inl rfl
  · next name hlast =>
      split at h
      · cases h
      · next above habove =>
          split at h
          · split at h
            · cases h
            · cases h
              exact .inl rfl
          · next hdots =>
              split at h
              · cases h
              · next hdirectory =>
                  split at h
                  · cases h
                  · split at h
                    · cases h
                    · next hsize =>
                        cases h
                        obtain ⟨hne, hslash⟩ :=
                          noSlash_of_mem_stepsOf (List.mem_of_getLast? hlast)
                        simp only [Bool.or_eq_true, decide_eq_true_eq, not_or]
                          at hdots
                        exact .inr ⟨above, name, rfl, ⟨hne, hdots.1,
                          hdots.2, hslash, Nat.le_of_not_lt hsize⟩,
                          by simpa using hdirectory, rfl⟩

/-- A step that finds nothing is one with a name, from a directory. -/
theorem of_step_notFound {place : List String} {name : String}
    (h : t.step place name = .error .notFound) :
    t.isDirectory place = true ∧ name ≠ "." ∧ name ≠ ".." ∧
    name.utf8ByteSize ≤ maxNameSize ∧
      t.entry? (place ++ [name]) = none := by
  rw [step] at h
  split at h
  · cases h
  · next hdirectory =>
      split at h
      · cases h
      · next hdot =>
          split at h
          · cases h
          · next hdots =>
              split at h
              · cases h
              · next hsize =>
                  split at h
                  · cases h
                  · next hnone =>
                      exact ⟨by simpa using hdirectory, hdot, hdots,
                        Nat.le_of_not_lt hsize, by simpa using hnone⟩

theorem IsTree.makeAlong (ht : t.IsTree) {names : List String}
    (hnames : ∀ name ∈ names, name ≠ "" ∧ '/' ∉ name.toList)
    (place : List String) : (t.makeAlong place names).1.IsTree := by
  induction names generalizing t place with
  | nil => exact ht
  | cons name names ih =>
      rw [List.forall_mem_cons] at hnames
      rw [FileTree.makeAlong]
      split
      · exact ih ht hnames.2 _
      · next hstep =>
          obtain ⟨hplace, hdot, hdots, hsize, hnone⟩ := of_step_notFound hstep
          have hname : IsName name :=
            ⟨hnames.1.1, hdot, hdots, hnames.1.2, hsize⟩
          exact ih (ht.put hname hplace fun _ => rfl) hnames.2 _
      · exact ht

/-- A file can be put where a new file goes, unless a directory is there. -/
theorem IsTree.put_of_locateNew (ht : t.IsTree) {path : String}
    {place : List String} {found : Option FileEntry}
    (h : t.locateNew path = .ok (place, found))
    (hfound : found ≠ some .directory) (text : String) :
    (t.put place (.file text)).IsTree := by
  rcases exists_of_locateNew h
    with hdirectory | ⟨above, name, rfl, hname, habove, rfl⟩
  · exact absurd hdirectory hfound
  · exact ht.put hname habove fun hthere => absurd (beq_iff_eq.1 hthere) hfound

/-- Every change of a tree makes a tree. -/
theorem IsTree.apply (ht : t.IsTree) (change : Change) :
    (change.apply t).IsTree := by
  cases change with
  | write path text =>
      rw [Change.apply, FileTree.write]
      split
      · exact ht
      · exact ht
      · next place found hdirectory hplace =>
          exact ht.put_of_locateNew hplace hdirectory text
  | create path text =>
      rw [Change.apply, FileTree.create]
      split
      · exact ht
      · exact ht
      · next place hplace => exact ht.put_of_locateNew hplace (by simp) text
  | makeDirectories path =>
      exact ht.makeAlong (fun name hname => noSlash_of_mem_stepsOf hname) _

/-- Whatever is done to a tree, it stays one. -/
theorem isTree_foldl (ht : t.IsTree) (changes : List Change) :
    (changes.foldl Change.apply t).IsTree := by
  induction changes generalizing t with
  | nil => exact ht
  | cons change changes ih => exact ih (ht.apply change)

end Scaffold.FileTree
