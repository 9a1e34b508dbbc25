import Formula.Config.Basic

set_option autoImplicit false

/-! # Command lines

A command line names a task, possibly inside of a group of tasks, with options and files. Options
that hold for every task may stand at any level. An option is written `--name value`,
`--name=value` or, with a letter, `-n value`, `-nvalue` or `-n=value`; flags with a letter can be
written together. Behind `--` nothing is an option. At one level no option may stand twice, except
where many values are allowed; of the same option at two levels the inner one counts.
-/

namespace Formula.Command

/-- What to do. -/
inductive Task where
  | eval (file : String) (bindings : List String) (tex showScope noConstants : Bool)
  | render (file : String) (tex : Bool)
  | inspect (file : String)
  | showConfig
  | generateConfig (output : String)
  | configPaths
  | info
  deriving Repr, DecidableEq

/-- The options that hold for every task. -/
structure Globals where
  debug : Bool := false
  logLevel : Option Level := none
  config : Option String := none
  maxDepth : Option Nat := none
  maxElements : Option Nat := none
  deriving Repr, DecidableEq

/-- What a command line asks for. -/
inductive Request where
  | run (globals : Globals) (task : Task)
  /-- The version of the program, or of one of its tasks. -/
  | version (name : String)
  | help
  /-- The command line is wrong. -/
  | usage
  deriving Repr, DecidableEq

/-! ## Options -/

/-- How often an option may stand at one level, and whether it has a value. -/
inductive OptionKind where
  | flag
  /-- A value for which a check decides whether it is taken. -/
  | value (accepts : String → Bool)
  | values

/-- An option. -/
structure OptionSpec where
  name : String
  letter : Option Char
  kind : OptionKind

/-- The options, inner tasks and files of a task. -/
structure Spec where
  name : String
  options : List OptionSpec
  inner : List String
  files : Nat

/-- What has been read at a level: options in order, and files. -/
structure Found where
  options : List (String × String) := []
  files : List String := []

/-- Why reading ends early. -/
inductive Stop where
  | usage
  | help
  | version

namespace Found

/-- Is an option among those read? -/
def has (f : Found) (name : String) : Bool := f.options.any fun o => o.1 == name

/-- The value of an option. -/
def value? (f : Found) (name : String) : Option String := f.options.lookup name

/-- All values of an option. -/
def values (f : Found) (name : String) : List String :=
  (f.options.filter fun o => o.1 == name).map Prod.snd

/-- Adds an option. -/
def add (f : Found) (o : OptionSpec) (value : String) : Except Stop Found :=
  let added := Except.ok { f with options := f.options ++ [(o.name, value)] }
  match o.kind with
  | .flag => if f.has o.name then .error .usage else added
  | .value accepts => if f.has o.name || !accepts value then .error .usage else added
  | .values => added

/-- Adds a file; there is room for `room` files. -/
def addFile (room : Nat) (f : Found) (file : String) : Except Stop Found :=
  if f.files.length < room ∧ file ≠ "" then .ok { f with files := f.files ++ [file] }
  else .error .usage

end Found

/-- A count on the command line. -/
def acceptsCount (text : String) : Bool := (Config.readWord? text).isSome

/-- A level on the command line. -/
def acceptsLevel (text : String) : Bool := (Config.levelOfToken? text).isSome

/-- A path on the command line. -/
def acceptsPath (text : String) : Bool := text != ""

/-- The options that hold for every task. -/
def globalOptions : List OptionSpec :=
  [⟨"debug", some 'd', .flag⟩, ⟨"log-level", none, .value acceptsLevel⟩,
    ⟨"config", none, .value acceptsPath⟩, ⟨"max-depth", none, .value acceptsCount⟩,
    ⟨"max-elements", none, .value acceptsCount⟩]

/-- The program itself. -/
def rootSpec : Spec :=
  ⟨"mathtree", globalOptions, ["eval", "render", "inspect", "config", "info"], 0⟩

/-- The options of a task, besides those that hold for all. -/
def ownOptions : String → List OptionSpec
  | "eval" =>
      [⟨"set", none, .values⟩, ⟨"tex", none, .flag⟩, ⟨"show-scope", none, .flag⟩,
        ⟨"no-constants", none, .flag⟩]
  | "render" => [⟨"tex", none, .flag⟩]
  | "generate" => [⟨"output", some 'o', .value acceptsPath⟩]
  | _ => []

/-- The task of a name inside of another one. -/
def innerSpec (outer : Spec) (name : String) : Spec :=
  { name := outer.name ++ "-" ++ name
    options := globalOptions ++ ownOptions name
    inner := if name = "config" then ["show", "generate", "paths"] else []
    files := if ["eval", "render", "inspect"].contains name then 1 else 0 }

/-! ## Reading one level -/

/-- Is the text an option, so that it is no value? -/
def looksLikeOption (text : String) : Bool := text.startsWith "-" && text != "-"

/-- Reads an option that needs a value, which may be attached or follow. -/
def readOption (found : Found) (o : OptionSpec) (attached : Option String) (rest : List String) :
    Except Stop (Found × List String) :=
  match o.kind, attached, rest with
  | .flag, none, rest => (found.add o "").map (·, rest)
  | .flag, some _, _ => .error .usage
  | _, some value, rest => (found.add o value).map (·, rest)
  | _, none, value :: rest =>
      if looksLikeOption value then .error .usage else (found.add o value).map (·, rest)
  | _, none, [] => .error .usage

/-- Reads an option with a name. -/
def readLong (spec : Spec) (found : Found) (name : String) (attached : Option String)
    (rest : List String) : Except Stop (Found × List String) :=
  match spec.options.find? fun o => o.name == name with
  | some o => readOption found o attached rest
  | none =>
      if attached.isSome then .error .usage
      else if name = "help" then .error .help
      else if name = "version" then .error .version
      else .error .usage

/-- Reads options with letters. -/
def readShort (spec : Spec) (found : Found) (rest : List String) :
    List Char → Except Stop (Found × List String)
  | [] => .ok (found, rest)
  | c :: more =>
      match spec.options.find? fun o => o.letter == some c with
      | some o =>
          match o.kind with
          | .flag => do readShort spec (← found.add o "") rest more
          | _ =>
              let value := match more with
                | '=' :: value => value
                | value => value
              let attached := if more = [] then none else some (String.ofList value)
              readOption found o attached rest
      | none =>
          if c = 'h' then .error .help
          else if c = 'V' then .error .version
          else .error .usage

/-- Where reading a level ends: at the end of the line or at an inner task. -/
inductive Ending where
  | done (found : Found)
  | inner (found : Found) (name : String) (rest : List String)

/-- Reads a level; `fuel` bounds the number of arguments. -/
def readLevel (spec : Spec) (found : Found) : Nat → List String → Except Stop Ending
  | 0, _ => .error .usage
  | _ + 1, [] => .ok (.done found)
  | fuel + 1, arg :: rest =>
      match arg.toList with
      | ['-', '-'] => (rest.foldlM (Found.addFile spec.files) found).map .done
      | '-' :: '-' :: cs => do
          let name := String.ofList (cs.takeWhile (· != '='))
          let attached := match cs.dropWhile (· != '=') with
            | [] => none
            | _ :: value => some (String.ofList value)
          let (found, rest) ← readLong spec found name attached rest
          readLevel spec found fuel rest
      | '-' :: c :: cs => do
          let (found, rest) ← readShort spec found rest (c :: cs)
          readLevel spec found fuel rest
      | _ =>
          if spec.inner = [] then do
            let found ← found.addFile spec.files arg
            readLevel spec found fuel rest
          else if spec.inner.contains arg then .ok (.inner found arg rest)
          else if arg = "help" then .error .help
          else .error .usage

/-! ## Reading the line -/

/-- The options for every task that were found at a level, in front of those of outer levels. -/
def globalsOf (outer : Globals) (f : Found) : Globals :=
  { debug := outer.debug || f.has "debug"
    logLevel := ((f.value? "log-level").bind Config.levelOfToken?).or outer.logLevel
    config := (f.value? "config").or outer.config
    maxDepth := ((f.value? "max-depth").bind Config.readWord?).or outer.maxDepth
    maxElements := ((f.value? "max-elements").bind Config.readWord?).or outer.maxElements }

/-- The task that a level without inner tasks asks for. -/
def taskOf (name : String) (f : Found) : Option Task :=
  match name, f.files with
  | "eval", [file] =>
      some (.eval file (f.values "set") (f.has "tex") (f.has "show-scope") (f.has "no-constants"))
  | "render", [file] => some (.render file (f.has "tex"))
  | "inspect", [file] => some (.inspect file)
  | "show", _ => some .showConfig
  | "generate", _ => some (.generateConfig ((f.value? "output").getD ".mathtree.yaml"))
  | "paths", _ => some .configPaths
  | "info", _ => some .info
  | _, _ => none

/-- What a stop at a level means. -/
def Stop.request (spec : Spec) : Stop → Request
  | .usage => .usage
  | .help => .help
  | .version => .version spec.name

/-- Reads a level and the levels inside of it, of which there are `depth` at most. -/
def readLevels (outer : Globals) (spec : Spec) (name : String) (args : List String) :
    Nat → Request
  | 0 => .usage
  | depth + 1 =>
      match readLevel spec {} (args.length + 1) args with
      | .error stop => stop.request spec
      | .ok (.inner f inner rest) =>
          readLevels (globalsOf outer f) (innerSpec spec inner) inner rest depth
      | .ok (.done f) =>
          match taskOf name f with
          | some task => .run (globalsOf outer f) task
          | none => .usage

/-- What a command line asks for. -/
def Request.ofArguments (args : List String) : Request := readLevels {} rootSpec "mathtree" args 3

end Formula.Command
