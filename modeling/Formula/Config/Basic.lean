import Formula.Document
import Formula.Log.Event
import Formula.Matrix.Shape
import Formula.Word

set_option autoImplicit false

/-! # Configurations

A configuration has three sections, each with settings that have a default. As a document it is a
mapping of mappings; it is also read from sequences of the settings in their order. What is not
named keeps its default, and names that mean nothing are ignored. A setting given twice and a
setting of the wrong kind make the document no configuration.
-/

namespace Formula

/-- How expressions are echoed. -/
inductive Notation where
  | text
  | tex
  deriving Repr, DecidableEq, Inhabited

/-- The name of a notation. -/
def Notation.token : Notation → String
  | .text => "text"
  | .tex => "tex"

/-- The settings of evaluation. -/
structure EvalSettings where
  maxDepth : Nat := 256
  maxElements : Nat := Formula.maxElements
  constants : Bool := true
  verbose : Bool := false
  deriving Repr, DecidableEq, Inhabited

/-- The settings of the output. -/
structure OutputSettings where
  echoAs : Notation := .text
  echo : Bool := false
  timing : Bool := false
  deriving Repr, DecidableEq, Inhabited

/-- The settings of logging. -/
structure LogSettings where
  level : Level := .warn
  debug : Bool := false
  deriving Repr, DecidableEq, Inhabited

/-- A configuration. -/
structure Config where
  eval : EvalSettings := {}
  output : OutputSettings := {}
  logging : LogSettings := {}
  deriving Repr, DecidableEq, Inhabited

/-! ## Documents -/

namespace EvalSettings

/-- The names of the settings. -/
def names : List String := ["max_depth", "max_elements", "constants", "verbose"]

/-- The document of the settings. -/
def toDocument (s : EvalSettings) : Document :=
  .mapping
    [("max_depth", .integer s.maxDepth), ("max_elements", .integer s.maxElements),
      ("constants", .bool s.constants), ("verbose", .bool s.verbose)]

end EvalSettings

namespace OutputSettings

/-- The names of the settings. -/
def names : List String := ["notation", "echo", "timing"]

/-- The document of the settings. -/
def toDocument (s : OutputSettings) : Document :=
  .mapping
    [("notation", .string s.echoAs.token), ("echo", .bool s.echo), ("timing", .bool s.timing)]

end OutputSettings

namespace LogSettings

/-- The names of the settings. -/
def names : List String := ["level", "debug"]

/-- The document of the settings. -/
def toDocument (s : LogSettings) : Document :=
  .mapping [("level", .string s.level.token), ("debug", .bool s.debug)]

end LogSettings

namespace Config

/-- The names of the sections. -/
def names : List String := ["eval", "output", "logging"]

/-- The document of a configuration. -/
def toDocument (c : Config) : Document :=
  .mapping
    [("eval", c.eval.toDocument), ("output", c.output.toDocument),
      ("logging", c.logging.toDocument)]

/-! ## Reading -/

/-- The values given to some names, in the order of the names: by a mapping, or one after the
other by a sequence that is not longer. -/
def given (names : List String) : Document → Option (List (Option Document))
  | .mapping entries =>
      names.mapM fun name =>
        match Document.valuesOf name entries with
        | [] => some none
        | [d] => some (some d)
        | _ => none
  | .sequence items =>
      if items.length ≤ names.length then
        some (items.map some ++ List.replicate (names.length - items.length) none)
      else none
  | _ => none

/-- Reads a value if there is one. -/
def readOr {α : Type} (default : α) (read : Document → Option α) : Option Document → Option α
  | none => some default
  | some d => read d

/-- The count that a document is. -/
def readCount : Document → Option Nat
  | .integer n => if 0 ≤ n ∧ n < Word.size then some n.toNat else none
  | _ => none

/-- The name that a document is: a string or, where names may be `keyed`, the only key of a mapping
to null. -/
def readName (keyed : Bool) : Document → Option String
  | .string name => some name
  | .mapping [(name, .null)] => if keyed then some name else none
  | _ => none

/-- The notation of a name. -/
def notationOfToken? : String → Option Notation
  | "text" => some .text
  | "tex" => some .tex
  | _ => none

/-- The level of a name. -/
def levelOfToken? : String → Option Level
  | "error" => some .error
  | "warn" => some .warn
  | "info" => some .info
  | "debug" => some .debug
  | "trace" => some .trace
  | _ => none

/-- The settings of evaluation that a document holds. -/
def readEval (d : Document) : Option EvalSettings := do
  let [maxDepth, maxElements, constants, verbose] ← given EvalSettings.names d | none
  some
    { maxDepth := ← readOr 256 readCount maxDepth
      maxElements := ← readOr Formula.maxElements readCount maxElements
      constants := ← readOr true Document.bool? constants
      verbose := ← readOr false Document.bool? verbose }

/-- The settings of the output that a document holds. -/
def readOutput (keyed : Bool) (d : Document) : Option OutputSettings := do
  let [echoAs, echo, timing] ← given OutputSettings.names d | none
  some
    { echoAs := ← readOr .text (fun d => readName keyed d >>= notationOfToken?) echoAs
      echo := ← readOr false Document.bool? echo
      timing := ← readOr false Document.bool? timing }

/-- The settings of logging that a document holds. -/
def readLog (keyed : Bool) (d : Document) : Option LogSettings := do
  let [level, debug] ← given LogSettings.names d | none
  some
    { level := ← readOr .warn (fun d => readName keyed d >>= levelOfToken?) level
      debug := ← readOr false Document.bool? debug }

/-- The configuration that a document holds, in which names may be `keyed`. -/
def ofDocument (keyed : Bool) (d : Document) : Option Config := do
  let [eval, output, logging] ← given names d | none
  some
    { eval := ← readOr {} readEval eval
      output := ← readOr {} (readOutput keyed) output
      logging := ← readOr {} (readLog keyed) logging }

/-! ## Environment -/

/-- The count that a text is: digits, with or without a plus sign. -/
def readWord? (text : String) : Option Nat :=
  let digits :=
    match text.toList with
    | '+' :: rest => rest
    | cs => cs
  if digits ≠ [] ∧ digits.all Char.isDigit then
    let n := digits.foldl (fun n c => 10 * n + (c.toNat - 48)) 0
    if n < Word.size then some n else none
  else none

/-- A text in lower case. -/
def lowered (text : String) : String := String.ofList (text.toList.map Char.toLower)

/-- The truth value that a word stands for; nothing is false. -/
def readTruth? (text : String) : Option Bool :=
  let word := lowered text
  if ["1", "true", "yes", "on"].contains word then some true
  else if ["0", "false", "no", "off", ""].contains word then some false
  else none

/-- The notation that a word stands for. -/
def notationOfWord? (text : String) : Option Notation :=
  match lowered text with
  | "text" => some .text
  | "tex" => some .tex
  | "latex" => some .tex
  | _ => none

/-- The level that a word stands for. -/
def levelOfWord? (text : String) : Option Level :=
  match lowered text with
  | "warning" => some .warn
  | word => levelOfToken? word

/-- The variables of the environment that hold settings. -/
def variableNames : List String :=
  ["MATHTREE_MAX_DEPTH", "MATHTREE_MAX_ELEMENTS", "MATHTREE_CONSTANTS", "MATHTREE_VERBOSE",
    "MATHTREE_NOTATION", "MATHTREE_TIMING", "MATHTREE_LOG_LEVEL", "MATHTREE_DEBUG"]

/-- The configuration with the settings that the environment overrides. A variable that cannot be
read changes nothing. -/
def override (c : Config) (environment : String → Option String) : Config :=
  let setting {α : Type} (name : String) (read : String → Option α) (old : α) : α :=
    (environment name >>= read).getD old
  { eval :=
      { maxDepth := setting "MATHTREE_MAX_DEPTH" readWord? c.eval.maxDepth
        maxElements := setting "MATHTREE_MAX_ELEMENTS" readWord? c.eval.maxElements
        constants := setting "MATHTREE_CONSTANTS" readTruth? c.eval.constants
        verbose := setting "MATHTREE_VERBOSE" readTruth? c.eval.verbose }
    output :=
      { c.output with
        echoAs := setting "MATHTREE_NOTATION" notationOfWord? c.output.echoAs
        timing := setting "MATHTREE_TIMING" readTruth? c.output.timing }
    logging :=
      { level := setting "MATHTREE_LOG_LEVEL" levelOfWord? c.logging.level
        debug := setting "MATHTREE_DEBUG" readTruth? c.logging.debug } }

end Config

end Formula
