import Formula.Path

set_option autoImplicit false

/-! # Files in memory

Directories and files under absolute paths, each held as the list of its parts. A path is followed
part by part: before a part is taken, what has been reached must be a directory. A file can only
be written into a directory that exists.
-/

namespace Formula

/-- Why a file cannot be read or written. -/
inductive FileError where
  | notFound
  | isDirectory
  | notDirectory
  | notUnicode
  | other (text : String)
  deriving Repr, DecidableEq

/-- The text of a file error. -/
def FileError.text : FileError → String
  | .notFound => "No such file or directory (os error 2)"
  | .isDirectory => "Is a directory (os error 21)"
  | .notDirectory => "Not a directory (os error 20)"
  | .notUnicode => "stream did not contain valid UTF-8"
  | .other text => text

/-- Directories, and files with their texts. The root is a directory without being listed. -/
structure Files where
  directories : List (List String) := []
  entries : List (List String × String) := []
  deriving Repr

namespace Files

/-- The names that lead from the root to a path. -/
def parts (path : String) : List String := Path.pieces '/' path

/-- Is there a directory? -/
def isDirectory (fs : Files) (place : List String) : Bool :=
  place.isEmpty || fs.directories.contains place

/-- The text of a file. -/
def text? (fs : Files) (place : List String) : Option String := fs.entries.lookup place

/-- The place one part further on. -/
def step (place : List String) (part : String) : List String :=
  if part = "" ∨ part = "." then place
  else if part = ".." then place.dropLast
  else place ++ [part]

/-- The place that some parts lead to. -/
def follow (fs : Files) (place : List String) : List String → Except FileError (List String)
  | [] => .ok place
  | part :: rest =>
      if fs.isDirectory place then follow fs (step place part) rest
      else if (fs.text? place).isSome then .error .notDirectory
      else .error .notFound

/-- Reads the file at an absolute path. -/
def read (fs : Files) (path : String) : Except FileError String := do
  let place ← fs.follow [] (parts path)
  if fs.isDirectory place then throw .isDirectory
  match fs.text? place with
    | some text => .ok text
    | none => .error .notFound

/-- Is there a file at an absolute path? -/
def isFile (fs : Files) (path : String) : Bool := (fs.read path).toBool

/-- Writes the file at an absolute path. -/
def write (fs : Files) (path text : String) : Except FileError Files := do
  let names := parts path
  let parent ← fs.follow [] names.dropLast
  if names.getLast? = some "" then throw .isDirectory
  let place ← fs.follow parent (names.drop (names.length - 1))
  if fs.isDirectory place then throw .isDirectory
  .ok { fs with entries := (place, text) :: fs.entries.filter fun e => e.1 != place }

/-- All the directories on the way to a place. -/
def ancestors (place : List String) : List (List String) :=
  (List.range place.length).map fun n => place.take n

/-- Adds a directory and all on the way to it. -/
def addDirectory (fs : Files) (path : String) : Files :=
  let place := (parts path).foldl step []
  { fs with directories := fs.directories ++ ancestors place ++ [place] }

/-- Adds a file and the directories on the way to it. -/
def addFile (fs : Files) (path text : String) : Files :=
  let place := (parts path).foldl step []
  { directories := fs.directories ++ ancestors place
    entries := (place, text) :: fs.entries.filter fun e => e.1 != place }

end Files

end Formula
