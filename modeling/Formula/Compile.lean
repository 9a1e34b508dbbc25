import Formula.Code
import Formula.Log.Event
import Formula.Node.Walk

set_option autoImplicit false

/-! # Compiling

A tree is compiled against a namespace. Each node is checked before its children: an operator
and a function need an entry that takes as many arguments, unless the tree itself assigns to the
function's name somewhere, and an update has to change a part of a variable. The first node that
fails, in the order of a walk, decides the error.

Compiling reports each function assignment once its body is compiled, also if a later node fails,
and the whole tree in the end.
-/

namespace Formula

/-- Why a tree cannot be compiled. -/
inductive CompileError where
  | undefinedFunction (name : String)
  | argumentCount (name : String) (expected : Arity) (actual : Nat)
  | node (fault : NodeError)
  deriving Repr, DecidableEq

namespace CompileError

/-- The name of an error's class. -/
def identifier : CompileError → String
  | .undefinedFunction _ => "MathTree:NameResolution"
  | .argumentCount .. => "MathTree:ArgumentCount"
  | .node fault => fault.identifier

/-- The text of an error. -/
def message : CompileError → String
  | .undefinedFunction name => s!"Undefined function {name}"
  | .argumentCount name expected actual =>
      s!"Wrong number of arguments in function {name} " ++
        s!"({actual} provided, {expected.text} expected)"
  | .node fault => fault.message

end CompileError

namespace Node

/-- The name that a node assigns to, if it is an assignment or a function assignment. -/
def assignedName? : Node → Option String
  | .assignment name _ => some name
  | .functionAssignment name _ _ => some name
  | _ => none

/-- The names that a tree assigns to, also inside the bodies of functions. -/
def locals (node : Node) : List String := node.visits.filterMap fun v => v.node.assignedName?

end Node

/-- Compiling fails with an error and reports events in either case. -/
abbrev Compiler := ExceptT CompileError (StateM (Array Event))

namespace Compiler

/-- Reports an event. -/
def report (event : Event) : Compiler Unit := modify fun events => events.push event

/-- The entry of a name that takes the given number of arguments. -/
def resolve (entries : Namespace) (name : String) (count : Nat) : Except CompileError Entry :=
  match entries.find? name with
  | none => .error (.undefinedFunction name)
  | some entry =>
      if entry.arity.accepts count then .ok entry
      else .error (.argumentCount name entry.arity count)

/-- The call of a function: of an entry, unless the name is one of the local ones. -/
def callee (entries : Namespace) (locals : List String) (name : String) (count : Nat) :
    Except CompileError (List Code → Code) :=
  if locals.contains name then .ok (Code.call name (entries.find? name))
  else (resolve entries name count).map Code.builtin

mutual

/-- The code of a tree inside a tree with the given local names. -/
def node (entries : Namespace) (locals : List String) : Node → Compiler Code
  | .constant value => pure (.constant value)
  | .symbol name => pure (.symbol name)
  | .operator _ fn args _ => do
      let entry ← liftExcept (resolve entries fn args.length)
      return .builtin entry (← nodes entries locals args)
  | .function name args => do
      let call ← liftExcept (callee entries locals name args.length)
      return call (← nodes entries locals args)
  | .array items => return .array (← nodes entries locals items)
  | .assignment name expr => return .assign name (← node entries locals expr)
  | .block statements => return .block (← blockEntries entries locals statements)
  | .conditional condition whenTrue whenFalse =>
      return .conditional (← node entries locals condition) (← node entries locals whenTrue)
        (← node entries locals whenFalse)
  | .functionAssignment name params body => do
      let code ← node entries locals body
      report (.compiledFunction name params)
      return .define name params code
  | .index object dimensions =>
      return .index (← node entries locals object) (← nodes entries locals dimensions)
  | .range start stop none =>
      return .range (← node entries locals start) (← node entries locals stop) none
  | .range start stop (some step) => do
      let start ← node entries locals start
      let stop ← node entries locals stop
      return .range start stop (some (← node entries locals step))
  | .update (.index (.symbol name) dimensions) expr =>
      return .update name (← nodes entries locals dimensions) (← node entries locals expr)
  | .update (.index object _) _ => throw (.node (.notSymbol object.kind))
  | .update target _ => throw (.node (.notIndex target.kind))

/-- The code of several trees. -/
def nodes (entries : Namespace) (locals : List String) : List Node → Compiler (List Code)
  | [] => pure []
  | first :: rest => do
      let code ← node entries locals first
      return code :: (← nodes entries locals rest)

/-- The code of the statements of a block. -/
def blockEntries (entries : Namespace) (locals : List String) :
    List (Node × Bool) → Compiler (List (Code × Bool))
  | [] => pure []
  | (first, visible) :: rest => do
      let code ← node entries locals first
      return (code, visible) :: (← blockEntries entries locals rest)

end

end Compiler

/-- Compiles a tree against a namespace and says what was reported. -/
def Node.compile (entries : Namespace) (tree : Node) : Except CompileError Code × Array Event :=
  match (Compiler.node entries tree.locals tree).run #[] with
  | (.ok code, events) => (.ok code, events.push (.compiled tree.identifier entries.length))
  | (.error fault, events) => (.error fault, events)

end Formula
