import Formula.Matrix.Kind
import Formula.Error
import Formula.Text.Quoted

set_option autoImplicit false

/-! # Events

What the parts of the program report while they work. Every event has a level, the part it comes
from (its target) and a text.
-/

namespace Formula

/-- How important an event is. -/
inductive Level where
  | error
  | warn
  | info
  | debug
  | trace
  deriving Repr, DecidableEq, Inhabited

namespace Level

/-- The name of a level in configurations. -/
def token : Level → String
  | error => "error"
  | warn => "warn"
  | info => "info"
  | debug => "debug"
  | trace => "trace"

/-- The name of a level in records. -/
def label : Level → String
  | error => "ERROR"
  | warn => "WARN"
  | info => "INFO"
  | debug => "DEBUG"
  | trace => "TRACE"

/-- How much is reported from this level on: the larger, the more. -/
def detail : Level → Nat
  | error => 1
  | warn => 2
  | info => 3
  | debug => 4
  | trace => 5

end Level

/-- Something that happened. -/
inductive Event where
  /-- A namespace of so many standard functions was made. -/
  | standardNamespace (count : Nat)
  /-- The body of a function assignment was compiled. -/
  | compiledFunction (name : String) (params : List String)
  /-- A tree was compiled against so many entries. -/
  | compiled (identifier : String) (entries : Nat)
  /-- A dense matrix grew. -/
  | resizing (old new : List Nat)
  /-- `matrix` made a matrix. -/
  | built (storage : StorageKind) (shape : List Nat)
  /-- A session is about to compile a tree. -/
  | compiling (text : String)
  /-- A session has computed a value and changed variables. -/
  | result (value : String) (assigned : List String)
  /-- A session failed. -/
  | failed (identifier message : String)
  /-- The program starts. -/
  | starting (version : String)
  /-- A variable was bound on the command line. -/
  | binding (name value : String)
  /-- A configuration was written. -/
  | saved (path : String)
  /-- The program failed. -/
  | aborted (text : String)
  deriving Repr, DecidableEq

namespace Event

/-- The level of an event. -/
def level : Event → Level
  | compiledFunction .. => .trace
  | resizing .. => .trace
  | built .. => .trace
  | failed .. => .warn
  | saved _ => .info
  | aborted _ => .error
  | _ => .debug

/-- The part of the program that an event comes from. -/
def target : Event → String
  | standardNamespace _ => "mathtree_builtins"
  | compiledFunction .. => "mathtree_compile::compiler"
  | compiled .. => "mathtree_compile::compiler"
  | resizing .. => "mathtree_value::matrix"
  | built .. => "mathtree_builtins::matrix"
  | compiling _ => "mathtree_core"
  | result .. => "mathtree_core"
  | failed .. => "mathtree_core"
  | saved _ => "mathtree::config"
  | _ => "mathtree"

/-- The text of an event; `elapsed` is the time that a result has taken, in microseconds. -/
def message (elapsed : String) : Event → String
  | standardNamespace count => s!"standard namespace: {count} functions"
  | compiledFunction name params => s!"compiled function {name}(" ++ ", ".intercalate params ++ ")"
  | compiled identifier entries => s!"compiled {identifier} against {entries} namespace entries"
  | resizing old new => s!"resizing dense matrix {shapeText old} -> {shapeText new}"
  | built storage shape => s!"matrix(): {storage.token} {shapeText shape}"
  | compiling text => s!"compiling {text}"
  | result value assigned =>
      s!"result {value} in {elapsed}us, assigned " ++ Text.quotedList assigned
  | failed identifier message => s!"{identifier}: {message}"
  | starting version => s!"mathtree v{version} starting"
  | binding name value => s!"binding {name} = {value}"
  | saved path => s!"Configuration saved to: {path}"
  | aborted text => text

end Event

end Formula
