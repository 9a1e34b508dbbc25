set_option autoImplicit false

/-! # Paths

A path is a text with slashes between its parts.
-/

namespace Formula.Path

/-- A path inside a directory; a path that starts at the root stays as it is. -/
def join (directory path : String) : String :=
  if path.startsWith "/" then path
  else if directory.endsWith "/" || directory == "" then directory ++ path
  else directory ++ "/" ++ path

/-- The pieces of a text between separators. -/
def pieces (separator : Char) (text : String) : List String :=
  (text.toList.splitOn separator).map String.ofList

/-- The last part of a path, unless that leads to a parent directory. -/
def fileName? (path : String) : Option String :=
  match ((pieces '/' path).filter fun part => part != "" && part != ".").getLast? with
  | some ".." => none
  | name => name

/-- The letters behind the last point of a path's last part. A point at its front starts no
extension. -/
def extension? (path : String) : Option String := do
  let name ← fileName? path
  let parts := pieces '.' name
  if parts.dropLast = [] ∨ parts.dropLast = [""] then none
  parts.getLast?

end Formula.Path
