import Scaffold.FileSystem
/-!
A file system under observation.  A journaled run asks the same of the file
system as the plain one, and keeps a journal of the writes with their outcomes
besides.  What a program wrote is thereby a matter of its run and not of what it
reports.
-/
namespace Scaffold

/-- A write that was asked of a file system, and what came of it. -/
structure Attempt where
  path : String
  outcome : Except FileFault Unit

namespace Attempt

/-- The path of a write that succeeded. -/
def success? (a : Attempt) : Option String :=
  match a.outcome with
  | .ok _ => some a.path
  | .error _ => none

/-- The path of a write that failed, and why it did. -/
def fault? (a : Attempt) : Option (String × FileFault) :=
  match a.outcome with
  | .ok _ => none
  | .error fault => some (a.path, fault)

end Attempt

/-- A program that keeps a journal of its writes. -/
def Journaled (m : Type → Type) (α : Type) : Type := StateT (List Attempt) m α

namespace Journaled

variable {m : Type → Type} [Monad m] {α : Type}

instance : Monad (Journaled m) :=
  inferInstanceAs (Monad (StateT (List Attempt) m))

def run (x : Journaled m α) (journal : List Attempt) : m (α × List Attempt) :=
  StateT.run x journal

/-- What leaves no trace in the journal. -/
def silently (x : m α) : Journaled m α := StateT.lift x

def noting (path : String) (x : m (Except FileFault Unit)) :
    Journaled m (Except FileFault Unit) :=
  fun journal => do
    let outcome ← x
    return (outcome, journal ++ [⟨path, outcome⟩])

instance [FileSystem m] : FileSystem (Journaled m) where
  read path := silently (FileSystem.read path)
  write path text := noting path (FileSystem.write path text)
  create path text := noting path (FileSystem.create path text)
  makeDirectories path := silently (FileSystem.makeDirectories path)
  isFile path := silently (FileSystem.isFile path)
  isPresent path := silently (FileSystem.isPresent path)
  placesUpward path := silently (FileSystem.placesUpward path)

end Journaled

/-- The plain and the journaled run of a program end alike, and the journal
tells these writes. -/
structure Observed {σ α : Type} (plain : StateM σ α)
    (journaled : Journaled (StateM σ) α) (files : σ) (result : α)
    (attempts : List Attempt) (after : σ) : Prop where
  run_plain : plain.run files = (result, after)
  run_journaled : ∀ journal,
    (journaled.run journal).run files = ((result, journal ++ attempts), after)

namespace Observed

variable {σ α β : Type} {files between after : σ}

theorem pure (result : α) (files : σ) :
    Observed (Pure.pure result) (Pure.pure result) files result [] files :=
  ⟨rfl, fun journal => by rw [List.append_nil]; rfl⟩

theorem bind {x : StateM σ α} {y : Journaled (StateM σ) α} {f : α → StateM σ β}
    {g : α → Journaled (StateM σ) β} {a : α} {b : β} {first rest : List Attempt}
    (hfirst : Observed x y files a first between)
    (hrest : Observed (f a) (g a) between b rest after) :
    Observed (x >>= f) (y >>= g) files b (first ++ rest) after where
  run_plain := by
    show (f (x.run files).1).run (x.run files).2 = _
    rw [hfirst.run_plain, hrest.run_plain]
  run_journaled journal := by
    show ((g ((y.run journal).run files).1.1).run
      ((y.run journal).run files).1.2).run ((y.run journal).run files).2 = _
    rw [hfirst.run_journaled, hrest.run_journaled, List.append_assoc]

theorem bind_pure {x : StateM σ α} {y : Journaled (StateM σ) α} {a : α}
    {attempts : List Attempt} (h : Observed x y files a attempts after)
    (f : α → β) :
    Observed (x >>= fun a => Pure.pure (f a))
      (y >>= fun a => Pure.pure (f a)) files (f a) attempts after := by
  have hbind := h.bind (f := fun a => Pure.pure (f a))
    (g := fun a => Pure.pure (f a)) (Observed.pure (f a) after)
  rwa [List.append_nil] at hbind

theorem silently (x : StateM σ α) (files : σ) :
    Observed x (Journaled.silently x) files (x.run files).1 []
      (x.run files).2 :=
  ⟨rfl, fun journal => by rw [List.append_nil]; rfl⟩

variable [FileSystem (StateM σ)]

theorem exists_write (path text : String) (files : σ) :
    ∃ (outcome : Except FileFault Unit) (after : σ),
      Observed (FileSystem.write path text) (FileSystem.write path text) files
        outcome [⟨path, outcome⟩] after :=
  ⟨_, _, rfl, fun _ => rfl⟩

theorem exists_makeDirectories (path : String) (files : σ) :
    ∃ (outcome : Except FileFault Unit) (after : σ),
      Observed (FileSystem.makeDirectories path)
        (FileSystem.makeDirectories path) files outcome [] after :=
  ⟨_, _, silently (FileSystem.makeDirectories path) files⟩

end Observed

end Scaffold
