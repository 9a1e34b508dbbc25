import Formula.Compile
import Formula.Eval
import Formula.Node.Text

set_option autoImplicit false

/-! # Sessions

A session compiles and runs trees against one library and in one scope, which persists. It counts
what it has done, says which variables a run has changed, and keeps a journal of events.
-/

namespace Formula

/-- What a session has done. -/
structure Stats where
  executions : Nat := 0
  compileErrors : Nat := 0
  evalErrors : Nat := 0
  deriving Repr, DecidableEq, Inhabited

/-- Why a session has no value for a tree. -/
inductive SessionError where
  | compile (fault : CompileError)
  | eval (fault : EvalError)
  deriving Repr

namespace SessionError

/-- The name of an error's class. -/
def identifier : SessionError → String
  | .compile fault => fault.identifier
  | .eval fault => fault.identifier

/-- The text of an error. -/
def message : SessionError → String
  | .compile fault => fault.message
  | .eval fault => fault.message

/-- Was the error found before anything was evaluated? -/
def isCompileTime : SessionError → Bool
  | .compile _ => true
  | .eval _ => false

end SessionError

/-- The value of a run, and the names of the variables that it has bound or changed, in order. -/
structure Outcome where
  value : Value
  assigned : List String

/-- The names whose values in `after` are not those in `before`. -/
def Scope.changed (before after : Scope) : List String :=
  (after.vars.filter fun e =>
    match before.get? e.1 with
    | some old => !old.unchanged e.2
    | none => true).map Prod.fst

/-- A library, a scope and what has been done with them. -/
structure Session where
  library : Library
  scope : Scope
  stats : Stats := {}
  verbose : Bool := false
  /-- The number of functions made so far. -/
  made : Nat := 0
  journal : Array Event := #[]

namespace Session

/-- A session over the standard functions with the given scope. -/
def start (scope : Scope) : Session :=
  { library := .standard
    scope := scope
    journal := #[.standardNamespace Library.standard.entries.length] }

/-- Puts an event into the journal. -/
def record (s : Session) (event : Event) : Session := { s with journal := s.journal.push event }

/-- Records an error. -/
def recordError (s : Session) (fault : SessionError) : Session :=
  s.record (.failed fault.identifier fault.message)

/-- Gives a variable a value. -/
def set (s : Session) (name : String) (v : Value) : Session :=
  { s with scope := s.scope.set name v }

/-- Drops all variables but the standard constants; the limits stay. -/
def clear (s : Session) : Session :=
  { s with scope := { Scope.standard with
      maxDepth := s.scope.maxDepth
      maxElements := s.scope.maxElements } }

/-- Compiles a tree. -/
def compile (s : Session) (tree : Node) : Except CompileError Code × Session :=
  let announced := if s.verbose then s.record (.compiling tree.text) else s
  let (r, events) := tree.compile s.library.entries
  (r, { announced with journal := announced.journal ++ events })

/-- Makes the changes of an evaluation in the session's scope. -/
def perform (s : Session) (evaluation : Eval Value) : Except EvalError Value × Session :=
  let (r, after) := evaluation ⟨s.scope, s.made, #[]⟩
  (r, { s with
    scope := after.scope
    made := after.made
    journal := s.journal ++ after.events })

/-- Runs compiled code. -/
def run (s : Session) (code : Code) : Except SessionError Outcome × Session :=
  let counted := { s with stats := { s.stats with executions := s.stats.executions + 1 } }
  match counted.perform (Eval.run s.library.registry code) with
  | (.error fault, after) =>
      let failed :=
        { after with stats := { after.stats with evalErrors := after.stats.evalErrors + 1 } }
      (.error (.eval fault), failed.recordError (.eval fault))
  | (.ok v, after) =>
      let assigned := s.scope.changed after.scope
      let told := if s.verbose then after.record (.result v.text assigned) else after
      (.ok ⟨v, assigned⟩, told)

/-- Compiles a tree and runs it. -/
def evaluate (s : Session) (tree : Node) : Except SessionError Outcome × Session :=
  match s.compile tree with
  | (.ok code, after) => after.run code
  | (.error fault, after) =>
      let failed :=
        { after with stats := { after.stats with compileErrors := after.stats.compileErrors + 1 } }
      (.error (.compile fault), failed.recordError (.compile fault))

/-- Calls a function value as if from a frame of the given depth. The session's variables stay as
they are. -/
def call (s : Session) (f : Closure Value) (args : List Value) (depth : Nat) :
    Except EvalError Value × Session :=
  s.perform (Eval.call s.library.registry Word.size f args (Word.succ depth))

end Session

end Formula
