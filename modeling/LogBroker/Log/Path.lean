/-!
# File paths

Paths are text whose components are separated by slashes. Joining looks at nothing but
the slashes at the seam: it neither removes components nor resolves them.
-/

namespace LogBroker.Path

/-- Separates the components of a path. -/
def separator : Char := '/'

/-- Whether a path stands for itself, wherever it is used. -/
def isAbsolute (path : String) : Bool := path.toList.head? == some separator

/-- The path `right`, seen from `left`. An absolute path is the same from everywhere; a
separator comes in between unless `left` is empty or ends with one. -/
def join (left right : String) : String :=
  if isAbsolute right then right
  else if left.isEmpty || left.toList.getLast? == some separator then left ++ right
  else left ++ "/" ++ right

end LogBroker.Path
