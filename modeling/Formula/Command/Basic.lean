import Formula.Binding
import Formula.Command.Arguments
import Formula.Command.Host
import Formula.Config.File
import Formula.Log.Filter
import Formula.Node.Source
import Formula.Node.Summary
import Formula.Node.Tex
import Formula.Session

set_option autoImplicit false

/-! # The program

The program does what a command line asks for and answers with a report: the exit code, the text
for the output, the error if there is one, and the events that are logged. What it reads and writes
goes through a `Host`.

A wrong command line is answered with the code 2 and an error with the code 1. Logging starts once
the configuration is known.
-/

namespace Formula.Command

/-- The version of the program. -/
def version : String := "0.2.0"

/-- How the program is used. -/
def usage : String :=
  "\n".intercalate
    ["Usage: mathtree [OPTIONS] <COMMAND>",
      "",
      "Commands:",
      "  eval FILE        Compile and evaluate a tree",
      "  render FILE      Print a tree as text or TeX",
      "  inspect FILE     Summarize the nodes of a tree",
      "  config show      Show the effective configuration",
      "  config generate  Write a default configuration file",
      "  config paths     Show where configuration files are looked up",
      "  info             Show version and namespace information",
      "",
      "Options:",
      "  -d, --debug             Enable debug logging",
      "  --log-level LEVEL       Set log level (error, warn, info, debug, trace)",
      "  --config FILE           Configuration file path",
      "  --max-depth N           Limit on nested function calls",
      "  --max-elements N        Limit on range lengths and matrix growth",
      "  --set NAME=VALUE        Bind a variable before evaluating",
      "  --tex                   Use TeX for the expression",
      "  --show-scope            Print the variables assigned by the tree",
      "  --no-constants          Start from an empty scope",
      "  -o, --output FILE       Where to write the configuration",
      ""]

/-- What a run of the program leads to. -/
structure Report where
  code : Nat
  output : String := ""
  error : Option String := none
  events : List Event := []
  /-- The time that the evaluation took, in microseconds. -/
  elapsed : String := ""

/-- What has been done so far. -/
structure Progress where
  output : String := ""
  events : Array Event := #[]
  elapsed : String := ""

/-- A run ends with a result or with the text of an error. -/
abbrev Run (m : Type → Type) := ExceptT String (StateT Progress m)

section

variable {m : Type → Type} [Monad m]

/-- Prints a line. -/
def print (line : String) : Run m Unit :=
  modify fun p => { p with output := p.output ++ line ++ "\n" }

/-- Logs events. -/
def log (events : Array Event) : Run m Unit :=
  modify fun p => { p with events := p.events ++ events }

/-- Uses the host. -/
def ask {α : Type} (x : m α) : Run m α := ExceptT.lift (liftM x)

/-! ## Configuration -/

/-- The names of configuration files in a directory. -/
def configNames : List String :=
  [".mathtree.yaml", ".mathtree.yml", ".mathtree.json", ".mathtree.toml"]

/-- Where configuration files are looked for, in order. -/
def candidatePaths (host : Host m) : List String :=
  let here := configNames.map (Path.join host.directory)
  let atHome := match host.home with
    | some home =>
        configNames.map (Path.join home) ++ [Path.join home ".config/mathtree/config.yaml"]
    | none => []
  (host.environment "MATHTREE_CONFIG").toList ++ here ++ atHome

/-- Reads a configuration file. -/
def loadConfig (host : Host m) (path : String) : Run m Config := do
  match ← ask (host.read path) with
  | .error e => throw ((Config.FileFault.unreadable path).message ++ ": " ++ e.text)
  | .ok text =>
      match Config.ofText path text with
      | .ok c => pure c
      | .error fault => throw fault.message

/-- The first of the paths at which there is a file. -/
def firstFile (host : Host m) : List String → m (Option String)
  | [] => pure none
  | path :: rest => do if ← host.isFile path then pure (some path) else firstFile host rest

/-- The configuration before the command line: of the file that is named or found, with the
settings of the environment. -/
def baseConfig (host : Host m) (named : Option String) : Run m Config := do
  let path ← match named with
    | some path => pure (some path)
    | none => ask (firstFile host (candidatePaths host))
  let config ← match path with
    | some path => loadConfig host path
    | none => pure {}
  pure (config.override host.environment)

/-- The configuration with the settings of the command line. -/
def Globals.apply (g : Globals) (c : Config) : Config :=
  { c with
    eval :=
      { c.eval with
        maxDepth := g.maxDepth.getD c.eval.maxDepth
        maxElements := g.maxElements.getD c.eval.maxElements }
    logging :=
      { level := g.logLevel.getD c.logging.level
        debug := g.debug || c.logging.debug } }

/-- The filter for the log: of the environment if there is one, or else of the configuration. -/
def logFilter (host : Host m) (c : Config) : Filter :=
  match host.environment "RUST_LOG" with
  | none => .ofLevel (if c.logging.debug then .debug else c.logging.level)
  | some text =>
      ((Filter.parse? text).or ((host.environment "MATHTREE_LOG").bind Filter.parse?)).getD
        (.ofLevel .info)

/-- Writes a configuration file. -/
def saveConfig (host : Host m) (path : String) (c : Config) : Run m Unit := do
  match Config.toText path c with
  | .error fault => throw fault.message
  | .ok text =>
      match ← ask (host.write path text) with
      | .error e => throw ((Config.FileFault.unwritable path).message ++ ": " ++ e.text)
      | .ok () => log #[.saved path]

/-! ## Tasks -/

/-- Reads a tree from a file. -/
def loadTree (host : Host m) (file : String) : Run m Node := do
  match ← ask (host.read file) with
  | .error e => throw (s!"Failed to read tree file: {file}: " ++ e.text)
  | .ok text =>
      match Node.ofText (.ofExtension (Path.extension? file)) text with
      | .ok tree => pure tree
      | .error e => throw (s!"Failed to load tree from {file}: " ++ e.message)

/-- A tree in a notation. -/
def shownAs (tree : Node) : Notation → String
  | .text => tree.text
  | .tex => tree.tex

/-- Binds variables one after the other. -/
def bindAll (session : Session) : List String → Run m Session
  | [] => pure session
  | text :: rest =>
      match Binding.parse text with
      | .error fault => throw fault.message
      | .ok (name, v) => do
          log #[.binding name v.text]
          bindAll (session.set name v) rest

/-- The session for an evaluation. -/
def sessionFor (s : EvalSettings) : Session :=
  let scope := if s.constants then Scope.standard else Scope.empty
  let limited := (scope.withMaxDepth (UInt64.ofNat s.maxDepth)).withMaxElements s.maxElements
  { Session.start limited with verbose := s.verbose }

/-- Evaluates the tree of a file. -/
def evalFile (host : Host m) (config : Config) (file : String) (bindings : List String)
    (showScope : Bool) : Run m Unit := do
  let tree ← loadTree host file
  let fresh := sessionFor config.eval
  log fresh.journal
  let session ← bindAll { fresh with journal := #[] } bindings
  if config.output.echo then print (shownAs tree config.output.echoAs)
  ask host.startTimer
  let (result, after) := session.evaluate tree
  let elapsed ← ask host.elapsed
  modify fun p => { p with elapsed := elapsed }
  log after.journal
  match result with
  | .error e => throw (s!"Evaluation of {file} failed: {e.identifier}: {e.message}")
  | .ok outcome =>
      print outcome.value.text
      if showScope then
        for name in outcome.assigned do
          match after.scope.get? name with
          | some v => print s!"{name} = {v.text}"
          | none => pure ()
      if config.output.timing then print s!"({elapsed} us)"

/-- Prints the paths of configuration files. -/
def printPaths (host : Host m) : Run m Unit := do
  match host.environment "MATHTREE_CONFIG" with
  | some path => print s!"Environment override: {path}"
  | none => pure ()
  for path in candidatePaths host do
    let found ← ask (host.isFile path)
    print ("  " ++ path ++ if found then " (exists)" else "")

/-- Cuts names into lines of eight. -/
def inLines : List String → List String
  | a :: b :: c :: d :: e :: f :: g :: h :: rest =>
      ", ".intercalate [a, b, c, d, e, f, g, h] :: inLines rest
  | [] => []
  | names => [", ".intercalate names]

/-- Prints the settings of evaluation and the names of the standard functions. -/
def printInfo (config : Config) : Run m Unit := do
  let entries := Namespace.standard
  log #[.standardNamespace entries.length]
  print s!"mathtree {version}"
  print ""
  print "Evaluation:"
  print s!"  Max call depth: {config.eval.maxDepth}"
  print s!"  Max elements: {config.eval.maxElements}"
  print s!"  Constants: {config.eval.constants}"
  print ""
  print s!"Namespace ({entries.length} functions):"
  for line in inLines entries.names do
    print ("  " ++ line)

/-- Does a task. -/
def perform (host : Host m) (config : Config) : Task → Run m Unit
  | .eval file bindings tex showScope noConstants =>
      let eval :=
        if noConstants then { config.eval with constants := false } else config.eval
      let output :=
        if tex then { config.output with echoAs := .tex, echo := true } else config.output
      evalFile host { config with eval := eval, output := output } file bindings showScope
  | .render file tex => do
      let tree ← loadTree host file
      print (shownAs tree (if tex then .tex else .text))
  | .inspect file => do
      let tree ← loadTree host file
      for line in tree.summary do
        print line
  | .showConfig => print (Yaml.write config.toDocument)
  | .generateConfig path => do
      tryCatch (saveConfig host path {}) fun text =>
        throw (s!"Failed to write config to {path}: " ++ text)
      print s!"Sample configuration generated: {path}"
  | .configPaths => printPaths host
  | .info => printInfo config

/-- Does a task under a configuration and logs what the filter keeps. -/
def runTask (host : Host m) (config : Config) (task : Task) : m Report := do
  let filter := logFilter host config
  let (result, p) ← (perform host config task).run { events := #[.starting version] }
  let report (code : Nat) (error : Option String) (events : Array Event) : Report :=
    { code := code
      output := p.output
      error := error
      events := events.toList.filter fun e => filter.keeps e.level e.target
      elapsed := p.elapsed }
  match result with
  | .ok () => pure (report 0 none p.events)
  | .error text => pure (report 1 (some text) (p.events.push (.aborted text)))

/-- Runs the program on a command line. -/
def run (host : Host m) (args : List String) : m Report := do
  match Request.ofArguments args with
  | .usage => pure { code := 2 }
  | .help => pure { code := 0, output := usage }
  | .version name => pure { code := 0, output := s!"{name} {version}\n" }
  | .run globals task =>
      let (config, _) ← (baseConfig host globals.config).run {}
      match config with
      | .error text => pure { code := 1, error := some text }
      | .ok config => runTask host (globals.apply config) task

end

end Formula.Command
