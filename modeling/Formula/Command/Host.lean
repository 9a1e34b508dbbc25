import Formula.Config.Basic
import Formula.Files

set_option autoImplicit false

/-! # Hosts

What surrounds the program: directories, environment variables, files and a timer, each used
through a function. The same program so runs on a machine and on files in memory.
-/

namespace Formula.Command

/-- The environment variables that the program looks at. -/
def variableNames : List String :=
  ["MATHTREE_CONFIG", "MATHTREE_LOG", "RUST_LOG"] ++ Config.variableNames

/-- What surrounds the program. -/
structure Host (m : Type → Type) where
  /-- The current directory. -/
  directory : String
  /-- The home directory. -/
  home : Option String
  /-- The value of an environment variable. -/
  environment : String → Option String
  /-- Reads a file. -/
  read : String → m (Except FileError String)
  /-- Is there a file at a path? -/
  isFile : String → m Bool
  /-- Writes a file. -/
  write : String → String → m (Except FileError Unit)
  /-- Starts the timer. -/
  startTimer : m Unit
  /-- The time since the timer was started, in microseconds, as it is shown. -/
  elapsed : m String

/-- A host with files in memory, on which no time passes. -/
def Host.inMemory (directory : String) (home : Option String)
    (environment : String → Option String) (elapsed : String) : Host (StateM Files) where
  directory := directory
  home := home
  environment := environment
  read path := return (← get).read (Path.join directory path)
  isFile path := return (← get).isFile (Path.join directory path)
  write path text := do
    match (← get).write (Path.join directory path) text with
    | .error e => return .error e
    | .ok fs =>
        set fs
        return .ok ()
  startTimer := pure ()
  elapsed := pure elapsed

end Formula.Command
