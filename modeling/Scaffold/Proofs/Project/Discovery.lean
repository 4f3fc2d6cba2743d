import Mathlib.Data.List.Find
import Scaffold.Project.Loading
import Scaffold.Proofs.FileSystem.Growing
/-!
Which settings file is found.  From the place where the search starts it goes up
directory by directory, and in each it asks for the names in their order, so it
finds the nearest directory with a settings file first, and there the name that
goes first.  Main statement: `discover_nearest`.
-/
namespace Scaffold

namespace FileTree

/-- Whether a file stands at a place; a directory does not count. -/
def isFileAt (t : FileTree) (place : List String) : Bool :=
  match t.entry? place with
  | some (.file _) => true
  | _ => false

def leadsToFile (t : FileTree) (path : String) : Bool :=
  match t.find? path with
  | some (.file _) => true
  | _ => false

theorem leadsToFile_pathOf {t : FileTree} (ht : t.IsTree) {place : List String}
    (h : ∀ name ∈ place, IsName name) :
    t.leadsToFile (pathOf place) = t.isFileAt place := by
  rw [leadsToFile, ht.find?_pathOf h, isFileAt]

/-! ### Going up -/

theorem upwardFrom_reverse_concat (place : List String) (name : String) :
    upwardFrom (place ++ [name]).reverse =
      (place ++ [name]) :: upwardFrom place.reverse := by
  rw [List.reverse_concat, upwardFrom, List.reverse_cons, List.reverse_reverse]

theorem mem_upwardFrom_iff {above place : List String} :
    above ∈ upwardFrom place.reverse ↔ above <+: place := by
  induction place using List.reverseRecOn with
  | nil => simp [upwardFrom]
  | append_singleton place name ih =>
      rw [upwardFrom_reverse_concat, List.mem_cons, ih, List.prefix_concat_iff]

/-- The further up, the shorter the place. -/
theorem pairwise_upwardFrom (place : List String) :
    (upwardFrom place.reverse).Pairwise (fun below above =>
      above.length < below.length) := by
  induction place using List.reverseRecOn with
  | nil => simp [upwardFrom]
  | append_singleton place name ih =>
      rw [upwardFrom_reverse_concat, List.pairwise_cons]
      refine ⟨fun above habove => ?_, ih⟩
      have hlength := (mem_upwardFrom_iff.1 habove).length_le
      rw [List.length_append, List.length_singleton]
      omega

/-- A search that goes upward finds what the nearest place has that has
anything. -/
theorem exists_nearest_of_findSome? {α : Type} {f : List String → Option α}
    {place : List String} {x : α}
    (h : (upwardFrom place.reverse).findSome? f = some x) :
    ∃ above, above <+: place ∧ f above = some x ∧
      ∀ nearer, nearer <+: place → above.length < nearer.length →
      f nearer = none := by
  obtain ⟨passed, above, further, hlist, hfound, hnone⟩ :=
    List.findSome?_eq_some_iff.1 h
  have hmem : ∀ {p}, p <+: place ↔ p ∈ passed ++ above :: further := by
    intro p
    rw [← hlist, mem_upwardFrom_iff]
  have hpairwise := pairwise_upwardFrom place
  rw [hlist, List.pairwise_append, List.pairwise_cons] at hpairwise
  refine ⟨above, hmem.2 (by simp), hfound, ?_⟩
  intro nearer hnearer hlength
  -- what is nearer was passed before, since places get shorter on the way up
  rcases List.mem_append.1 (hmem.1 hnearer) with hpassed | hrest
  · exact hnone nearer hpassed
  · rcases List.mem_cons.1 hrest with rfl | hfurther
    · exact absurd hlength (Nat.lt_irrefl _)
    · exact absurd (hpairwise.2.1.1 nearer hfurther) (Nat.lt_asymm hlength)

end FileTree

namespace Project

open FileTree

/-- The name of the settings file in a directory: of the names of files there,
the one that goes first. -/
def nameAt? (t : FileTree) (place : List String) : Option String :=
  fileNames.find? fun name => t.isFileAt (place ++ [name])

/-- A file in the nearest directory above a place that has a settings file, with
the name that goes first of those there. -/
structure IsNearest (t : FileTree) (place above : List String) (name : String) :
    Prop where
  isAbove : above <+: place
  isFile : t.isFileAt (above ++ [name]) = true
  nearest : ∀ nearer, nearer <+: place → above.length < nearer.length →
    ∀ other ∈ fileNames, t.isFileAt (nearer ++ [other]) = false
  first : ∃ front behind, fileNames = front ++ name :: behind ∧
    ∀ other ∈ front, t.isFileAt (above ++ [other]) = false

theorem isName_of_mem_fileNames : ∀ name ∈ fileNames, IsName name := by decide

section

variable {t : FileTree} {place above : List String} {name : String}

theorem nameAt?_eq_none_iff :
    nameAt? t place = none ↔ ∀ name ∈ fileNames, t.isFileAt (place ++ [name]) =
      false := by
  simp [nameAt?]

theorem nameAt?_eq_some_iff :
    nameAt? t place = some name ↔ t.isFileAt (place ++ [name]) = true ∧
      ∃ front behind, fileNames = front ++ name :: behind ∧
        ∀ other ∈ front, t.isFileAt (place ++ [other]) = false := by
  rw [nameAt?, List.find?_eq_some_iff_append]
  simp only [Bool.not_eq_true']

/-! ### The search -/

theorem firstFile_run (paths : List String) (t : FileTree) :
    (firstFile paths : StateM FileTree (Option String)) t =
      (paths.find? t.leadsToFile, t) := by
  induction paths with
  | nil => rfl
  | cons path paths ih =>
      rw [firstFile, List.find?_cons]
      change (if t.leadsToFile path = true then
        (pure (some path) : StateM FileTree (Option String))
        else firstFile paths) t = _
      cases t.leadsToFile path with
      | true => rfl
      | false => exact ih

/-- The candidates in a directory are asked for in the order of the names. -/
theorem find?_join (ht : t.IsTree) (hplace : ∀ name ∈ place, IsName name) :
    (fileNames.map (Path.join (pathOf place))).find? t.leadsToFile =
      (nameAt? t place).map fun name => pathOf (place ++ [name]) := by
  have hjoin : fileNames.map (Path.join (pathOf place)) =
      fileNames.map fun name => pathOf (place ++ [name]) :=
    List.map_congr_left fun name hname =>
      join_pathOf hplace (isName_of_mem_fileNames name hname)
  have hfile : ∀ name ∈ fileNames,
      t.leadsToFile (pathOf (place ++ [name])) =
        t.isFileAt (place ++ [name]) := by
    intro name hname
    apply leadsToFile_pathOf ht
    rw [List.forall_mem_append, List.forall_mem_singleton]
    exact ⟨hplace, isName_of_mem_fileNames name hname⟩
  rw [hjoin, List.find?_map, nameAt?]
  exact congrArg (Option.map _) (List.find?_congr hfile)

/-- The search asks the directories from the start upward. -/
theorem discover_run {start : String} (hstart : t.locate start = .ok place) :
    (discover start : StateM FileTree (Except Failure (Option String))) t =
      (.ok ((upwardFrom place.reverse).findSome? fun above =>
        (fileNames.map (Path.join (pathOf above))).find?
          t.leadsToFile), t) := by
  have hplaces : (FileSystem.placesUpward start : StateM FileTree _) t =
      (.ok ((upwardFrom place.reverse).map pathOf), t) := by
    change (t.placesUpward start, t) = _
    rw [FileTree.placesUpward, hstart]
  have hsearch :=
    firstFile_run (((upwardFrom place.reverse).map pathOf).flatMap fun place =>
    fileNames.map (Path.join place)) t
  rw [List.flatMap_map, List.find?_flatMap] at hsearch
  simp only [discover, bind, StateT.bind, hplaces, hsearch, List.flatMap_map]
  rfl

/-- The search ends, and finds a settings file exactly if there is one in a
directory that it passes; then it is the nearest one, and of those in its
directory the one whose name goes first. -/
theorem discover_nearest (ht : t.IsTree) {start : String}
    (hstart : t.locate start = .ok place) :
    ∃ found,
    (discover start : StateM FileTree (Except Failure (Option String))) t =
        (.ok found, t) ∧
      (found.isSome = true ↔ ∃ above, above <+: place ∧
        ∃ name ∈ fileNames, t.isFileAt (above ++ [name]) = true) ∧
      ∀ path ∈ found, ∃ above name,
        path = pathOf (above ++ [name]) ∧ IsNearest t place above name := by
  have hplace := ht.forall_isName (ht.isSome_of_locate hstart)
  have hjoin : ∀ {above : List String}, above <+: place →
      (fileNames.map (Path.join (pathOf above))).find? t.leadsToFile =
        (nameAt? t above).map fun name => pathOf (above ++ [name]) :=
    fun habove => find?_join ht fun name hname =>
      hplace name (habove.subset hname)
  refine ⟨_, discover_run hstart, ?_, ?_⟩
  · rw [List.findSome?_isSome_iff]
    constructor
    · rintro ⟨above, habove, hfound⟩
      rw [mem_upwardFrom_iff] at habove
      rw [hjoin habove, Option.isSome_map] at hfound
      obtain ⟨name, hname⟩ := Option.isSome_iff_exists.1 hfound
      exact ⟨above, habove, name, List.mem_of_find?_eq_some hname,
        (nameAt?_eq_some_iff.1 hname).1⟩
    · rintro ⟨above, habove, name, hname, hfile⟩
      refine ⟨above, mem_upwardFrom_iff.2 habove, ?_⟩
      rw [hjoin habove, Option.isSome_map, nameAt?, List.find?_isSome]
      exact ⟨name, hname, hfile⟩
  · intro path hpath
    obtain ⟨above, habove, hfound, hnone⟩ := exists_nearest_of_findSome? hpath
    rw [hjoin habove] at hfound
    obtain ⟨name, hname, rfl⟩ := Option.map_eq_some_iff.1 hfound
    obtain ⟨hfile, hfirst⟩ := nameAt?_eq_some_iff.1 hname
    refine ⟨above, name, rfl, habove, hfile, ?_, hfirst⟩
    intro nearer hnearer hlength
    have hempty := hnone nearer hnearer hlength
    rw [hjoin hnearer, Option.map_eq_none_iff] at hempty
    exact nameAt?_eq_none_iff.1 hempty

end

namespace DiscoveryWitness

/-- Two settings files in a directory, a third one above it, and below it a
directory that is named like one. -/
def tree : FileTree where
  entries :=
    [(["a"], .directory), (["a", "b"], .directory), (["a", "b",
      ".mkcomprc.json"], .directory), (["a", "mkcomp.yml"], .file ""),
      (["a", ".mkcomprc.toml"], .file ""), (["mkcomp.yaml"], .file "")]
  workingDirectory := ["a"]

theorem discover_nearest_below :
    tree.IsTree ∧ tree.locate "b/../b" = .ok ["a", "b"] ∧
      (discover "b/../b" :
        StateM FileTree (Except Failure (Option String))) tree =
        (.ok (some "/a/.mkcomprc.toml"), tree) ∧
      ∃ above name, "/a/.mkcomprc.toml" = pathOf (above ++ [name]) ∧
        IsNearest tree ["a", "b"] above name := by
  have htree : tree.IsTree := isTree_of_forall (by decide) rfl
  have hstart : tree.locate "b/../b" = .ok ["a", "b"] := by decide +kernel
  have hrun : (discover "b/../b" :
      StateM FileTree (Except Failure (Option String))) tree =
      (.ok (some "/a/.mkcomprc.toml"), tree) := by
    have hfirst : ((upwardFrom ["a", "b"].reverse).findSome? fun above =>
        (fileNames.map (Path.join (pathOf above))).find? tree.leadsToFile) =
        some "/a/.mkcomprc.toml" := by decide +kernel
    rw [discover_run hstart, hfirst]
  obtain ⟨found, hfound, -, hnearest⟩ := discover_nearest htree hstart
  rw [hrun] at hfound
  cases hfound
  exact ⟨htree, hstart, hrun, hnearest _ rfl⟩

end DiscoveryWitness

end Project

end Scaffold
