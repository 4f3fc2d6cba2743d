import Scaffold.Statement
/-!
The way from the root of a growing statement tree down to the place where the
next statement goes. A statement on the way is attached to the one above it when
the path climbs out of it.
-/
namespace Scaffold.Statement

/-- The statements that are still open, the innermost first, and the finished
ones at the root. -/
structure Path where
  opened : List Statement := []
  finished : List Statement := []

namespace Path

/-- The path with a statement finished at its end. -/
def attach (path : Path) (s : Statement) : Path :=
  match path.opened with
  | [] => { path with finished := path.finished ++ [s] }
  | innermost :: outer => { path with opened := innermost.append s :: outer }

/-- The path that leads down into a statement. -/
def descend (path : Path) (s : Statement) : Path :=
  { path with opened := s :: path.opened }

/-- The path one level up; at the root there is none. -/
def climb (path : Path) : Path :=
  match path.opened with
  | [] => path
  | innermost :: outer => { path with opened := outer }.attach innermost

/-- Climbs a number of levels. -/
def climbs (path : Path) : Nat → Path
  | 0 => path
  | n + 1 => path.climb.climbs n

/-- The whole tree, with every open statement attached. -/
def close (path : Path) : List Statement :=
  (path.climbs path.opened.length).finished

end Path

end Scaffold.Statement
