import Formula.Command.Basic

set_option autoImplicit false

/-! # The command line

Runs the program on the files, the environment and the clock of the machine. The output goes to
the standard output; log lines and the error go to the standard error.
-/

namespace Formula.Command

/-- The number of a system error; it may come negated. -/
def errorNumber (code : UInt32) : Nat :=
  if code < 0x80000000 then code.toNat else (-code).toNat

/-- The cause of a system error, given by its number and its description. -/
def systemError (code : UInt32) (description : String) : FileError :=
  match errorNumber code with
  | 2 => .notFound
  | 20 => .notDirectory
  | 21 => .isDirectory
  | n => .other s!"{description} (os error {n})"

/-- The cause of a file error of the machine. -/
def fileError : IO.Error → FileError
  | .noFileOrDirectory _ code description
  | .inappropriateType _ code description
  | .permissionDenied _ code description
  | .invalidArgument _ code description
  | .resourceExhausted _ code description
  | .resourceBusy code description
  | .illegalOperation code description
  | .otherError code description => systemError code description
  | e => .other (toString e)

/-- Reads a file as text. -/
def readText (path : String) : IO (Except FileError String) := do
  match ← (IO.FS.readBinFile path).toBaseIO with
  | .error e => return .error (fileError e)
  | .ok bytes =>
      match String.fromUTF8? bytes with
      | some text => return .ok text
      | none => return .error .notUnicode

/-- Writes a text to a file. -/
def writeText (path text : String) : IO (Except FileError Unit) := do
  match ← (IO.FS.writeFile path text).toBaseIO with
  | .error e => return .error (fileError e)
  | .ok () => return .ok ()

/-- Can a file be read? -/
def isReadable (path : String) : IO Bool := do
  match ← (IO.FS.readBinFile path).toBaseIO with
  | .error _ => return false
  | .ok _ => return true

/-- The machine as a host. -/
def machine : IO (Host IO) := do
  let timer ← IO.mkRef 0
  let directory ← IO.currentDir
  let home ← IO.getEnv "HOME"
  let known ← variableNames.mapM fun name => return (name, ← IO.getEnv name)
  return {
    directory := directory.toString
    home := home
    environment := fun name => (known.lookup name).join
    read := readText
    isFile := isReadable
    write := writeText
    startTimer := do timer.set (← IO.monoNanosNow)
    elapsed := return toString (((← IO.monoNanosNow) - (← timer.get)) / 1000) }

end Formula.Command

/-- Runs the program and answers its exit code. -/
def main (args : List String) : IO UInt32 := do
  let report ← Formula.Command.run (← Formula.Command.machine) args
  IO.print report.output
  for event in report.events do
    IO.eprintln (event.level.label ++ " " ++ event.message report.elapsed)
  if report.code = 2 then IO.eprint Formula.Command.usage
  if let some text := report.error then IO.eprintln ("Error: " ++ text)
  return UInt32.ofNat report.code
