/-!
# Paths without detours

The parts of a path are divided by slashes. An empty part and a single dot stand for the directory
reached, a double dot for the one above it. `normal` takes such detours out of a path by its text
alone, whether the directories on the way are there or not.
-/

namespace Subleq.Path

/-- Adds a part to the parts of a path without detours, last one first; above the root of the disk
there is only the root itself. -/
def add (rooted : Bool) (parts : List String) (part : String) : List String :=
  if part == "" || part == "." then parts
  else if part != ".." then part :: parts
  else match parts with
    | [] => if rooted then [] else [part]
    | last :: above => if last == ".." then part :: parts else above

/-- The slashes a path starts with: two stay two, any other number counts as one. -/
def root (path : String) : String :=
  match path.toList with
  | '/' :: '/' :: '/' :: _ => "/"
  | '/' :: '/' :: _ => "//"
  | '/' :: _ => "/"
  | _ => ""

/-- Whether a path starts at the root of the disk. -/
def isRooted (path : String) : Bool := !(root path).isEmpty

/-- The path without detours. The path that leads nowhere else is a single dot. -/
def normal (path : String) : String :=
  let parts := ((path.splitOn "/").foldl (add (isRooted path)) []).reverse
  let text := root path ++ String.intercalate "/" parts
  if text.isEmpty then "." else text

/-- Whether a path without detours leads out of the directory it is read in. -/
def leadsOut (path : String) : Bool :=
  isRooted path || (path.splitOn "/").head? == some ".."

end Subleq.Path
