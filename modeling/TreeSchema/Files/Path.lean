/-
# TreeSchema.Files.Path — paths as text.

A path keeps the text it was written with; only what is asked of it looks at its components.  Empty
components and single dots after the first component do not count.  So one path can be written in many
ways, and paths are compared by what counts.
-/

namespace TreeSchema.Files.Path

/-- Whether a path starts from the root. -/
def isAbsolute (path : String) : Bool := path.toList.head? == some '/'

/-- The pieces between slashes, empty ones included. -/
def pieces : List Char → List (List Char)
  | [] => [[]]
  | c :: rest =>
    if c = '/' then [] :: pieces rest
    else
      match pieces rest with
      | p :: ps => (c :: p) :: ps
      | [] => [[c]]

/-- The single dot. -/
def dot : List Char := ['.']

/-- The two dots that lead to what holds a directory. -/
def dots : List Char := ['.', '.']

/-- The components of a path that lead somewhere. -/
def components (path : String) : List (List Char) :=
  (pieces path.toList).filter fun p => !p.isEmpty && p != dot

/-- Whether a path begins with the single dot, the one that counts. -/
def startsHere (path : String) : Bool := (pieces path.toList).head? == some dot

/-- Whether two texts are the same path: they start alike and go through the same components. -/
def equals (p q : String) : Bool :=
  isAbsolute p == isAbsolute q && startsHere p == startsHere q && components p == components q

/-- The name after all slashes, unless it is a double dot. -/
def fileName? (path : String) : Option (List Char) :=
  (components path).getLast?.filter fun p => p != dots

/-- What follows the last dot of the name.  A dot at the front of the name does not count. -/
def extension? (path : String) : Option String := do
  let name ← fileName? path
  let tail := name.reverse.takeWhile (· != '.')
  if name.length ≤ tail.length + 1 then none else pure (String.ofList tail.reverse)

/-- Strips slashes, and dots between slashes, from the end of a path in reverse order.  What the path
begins with stays: a slash, or a dot. -/
def trimReversed : List Char → List Char
  | ['/'] => ['/']
  | '/' :: rest => trimReversed rest
  | ['.', '/'] => ['/']
  | '.' :: '/' :: rest => trimReversed ('/' :: rest)
  | rest => rest

/-- The path of what holds a path, without the slashes at its end.  There is none for the empty path
and for the root. -/
def parent? (path : String) : Option String :=
  let whole := trimReversed path.toList.reverse
  if whole.isEmpty || whole == ['/'] then none
  else
    let name := whole.takeWhile (· != '/')
    some (String.ofList (trimReversed (whole.drop name.length)).reverse)

/-- A path seen from a directory.  An absolute path stays as it is. -/
def join (base path : String) : String :=
  if isAbsolute path || base.isEmpty then path
  else if base.toList.getLast? == some '/' then base ++ path
  else base ++ "/" ++ path

end TreeSchema.Files.Path
