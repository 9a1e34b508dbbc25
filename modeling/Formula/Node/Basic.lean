import Formula.Decimal.Literal
import Formula.Text.Blank

set_option autoImplicit false

/-! # Expression trees

A node is one of twelve kinds. Its leaf data are names, flags and literals; the rest are its
children, which come in a fixed order: the arguments of an operator or a function, the items of
an array, and so on. `children` lists them and `withChildren` puts others in their places, so
that whatever walks over trees needs to know nothing else of the kinds.

Two rules tie a node to the kinds of its children and are checked where nodes are made: an
operator has one or two arguments, and what an update changes is an index node. A tree is `Valid`
if both hold everywhere in it.
-/

namespace Formula

/-- A literal. -/
inductive Literal where
  | number (x : Float)
  | string (s : String)
  | boolean (b : Bool)
  | null
  deriving Repr, BEq, Inhabited

/-- The type of a literal. -/
inductive LiteralType where
  | number
  | string
  | boolean
  | null
  deriving Repr, DecidableEq, Inhabited

/-- An expression tree. -/
inductive Node where
  | constant (value : Literal)
  | symbol (name : String)
  | operator (op fn : String) (args : List Node) (implicit : Bool)
  | function (name : String) (args : List Node)
  | array (items : List Node)
  | assignment (name : String) (expr : Node)
  /-- Statements, each with a flag that says whether its value is shown. -/
  | block (entries : List (Node × Bool))
  | conditional (condition whenTrue whenFalse : Node)
  | functionAssignment (name : String) (params : List String) (body : Node)
  | index (object : Node) (dimensions : List Node)
  | range (start stop : Node) (step : Option Node)
  /-- Assigns the value of `expr` to the part of a variable that `target` selects. -/
  | update (target expr : Node)
  deriving Repr, Inhabited

/-- The kinds of nodes. -/
inductive NodeKind where
  | constant
  | symbol
  | operator
  | function
  | array
  | assignment
  | block
  | conditional
  | functionAssignment
  | index
  | range
  | update
  deriving Repr, DecidableEq, Inhabited

namespace NodeKind

/-- All kinds. -/
def all : List NodeKind :=
  [constant, symbol, operator, function, array, assignment, block, conditional,
    functionAssignment, index, range, update]

/-- The name of a kind. -/
def typeName : NodeKind → String
  | constant => "ConstantNode"
  | symbol => "SymbolNode"
  | operator => "OperatorNode"
  | function => "FunctionNode"
  | array => "ArrayNode"
  | assignment => "AssignmentNode"
  | block => "BlockNode"
  | conditional => "ConditionalNode"
  | functionAssignment => "FunctionAssignmentNode"
  | index => "IndexNode"
  | range => "RangeNode"
  | update => "UpdateNode"

/-- The kind of a name. -/
def ofTypeName? (name : String) : Option NodeKind := all.find? fun kind => kind.typeName == name

end NodeKind

/-- All literal types. -/
def LiteralType.all : List LiteralType := [.number, .string, .boolean, .null]

/-- The name of a literal type. -/
def LiteralType.token : LiteralType → String
  | .number => "number"
  | .string => "string"
  | .boolean => "boolean"
  | .null => "null"

/-- The literal type of a name. -/
def LiteralType.ofToken? : String → Option LiteralType
  | "number" => some .number
  | "string" => some .string
  | "boolean" => some .boolean
  | "null" => some .null
  | _ => none

/-! ## Errors -/

/-- Why a node cannot be made. -/
inductive NodeError where
  /-- A node has another number of children. -/
  | childCount (kind : NodeKind) (expected actual : Nat)
  /-- An operator has one or two arguments. -/
  | operands (actual : Nat)
  /-- What an update changes is an index node. -/
  | notIndex (actual : NodeKind)
  /-- The index node of an update selects from a symbol. -/
  | notSymbol (actual : NodeKind)
  /-- A text is no literal of its type. -/
  | literal (text : String) (type : LiteralType)
  deriving Repr, DecidableEq

namespace NodeError

/-- The name of an error's class. -/
def identifier : NodeError → String
  | .childCount .. => "MathTree:ArgumentCount"
  | .operands _ => "MathTree:ArgumentCount"
  | .notIndex _ => "MathTree:InvalidChild"
  | .notSymbol _ => "MathTree:InvalidChild"
  | .literal .. => "MathTree:InvalidConstant"

/-- The text of an error. -/
def message : NodeError → String
  | .childCount kind expected actual =>
      s!"{kind.typeName} expects {expected} children, got {actual}"
  | .operands actual => s!"OperatorNode expects 1 or 2 children, got {actual}"
  | .notIndex actual =>
      s!"invalid child for UpdateNode: index must be an IndexNode, got {actual.typeName}"
  | .notSymbol actual =>
      s!"invalid child for UpdateNode: update target must be a symbol, got {actual.typeName}"
  | .literal text type => s!"invalid constant \"{text}\" for value type {type.token}"

end NodeError

/-! ## Literals -/

namespace Literal

/-- The type of a literal. -/
def type : Literal → LiteralType
  | number _ => .number
  | string _ => .string
  | boolean _ => .boolean
  | null => .null

/-- The literal of a type that a text stands for. -/
def parse (text : String) (type : LiteralType) : Except NodeError Literal :=
  let invalid := Except.error (NodeError.literal text type)
  match type with
  | .number =>
      match Decimal.read? (Text.trim text) with
      | some x => .ok (number x)
      | none => invalid
  | .string => .ok (string text)
  | .boolean =>
      if text = "true" then .ok (boolean true)
      else if text = "false" then .ok (boolean false)
      else invalid
  | .null => if text = "null" ∨ text = "" then .ok null else invalid

end Literal

namespace Node

/-! ## Making nodes -/

/-- An operator with one argument. -/
def unary (op fn : String) (arg : Node) : Node := .operator op fn [arg] false

/-- An operator with two arguments. -/
def binary (op fn : String) (left right : Node) : Node := .operator op fn [left, right] false

/-- Is the node an operator with one argument? -/
def isUnary : Node → Bool
  | .operator _ _ args _ => args.length == 1
  | _ => false

/-- Is the node an operator with two arguments? -/
def isBinary : Node → Bool
  | .operator _ _ args _ => args.length == 2
  | _ => false

/-- The kind of a node. -/
def kind : Node → NodeKind
  | .constant _ => .constant
  | .symbol _ => .symbol
  | .operator .. => .operator
  | .function .. => .function
  | .array _ => .array
  | .assignment .. => .assignment
  | .block _ => .block
  | .conditional .. => .conditional
  | .functionAssignment .. => .functionAssignment
  | .index .. => .index
  | .range .. => .range
  | .update .. => .update

/-- An operator with one or two arguments. -/
def makeOperator (op fn : String) (args : List Node) : Except NodeError Node :=
  if args.length = 1 ∨ args.length = 2 then .ok (.operator op fn args false)
  else .error (.operands args.length)

/-- An update of an index node. -/
def makeUpdate (target expr : Node) : Except NodeError Node :=
  if target.kind = .index then .ok (.update target expr) else .error (.notIndex target.kind)

/-- The kind of a node, with its name where it has one. -/
def identifier (node : Node) : String :=
  let named (name : String) := node.kind.typeName ++ ":" ++ name
  match node with
  | .symbol name => named name
  | .function name _ => named name
  | .operator _ fn _ _ => named fn
  | .assignment name _ => named name
  | .functionAssignment name _ _ => named name
  | _ => node.kind.typeName

/-! ## Children -/

/-- The children in their order. -/
def children : Node → List Node
  | .constant _ => []
  | .symbol _ => []
  | .operator _ _ args _ => args
  | .function _ args => args
  | .array items => items
  | .assignment _ expr => [expr]
  | .block entries => entries.map Prod.fst
  | .conditional condition whenTrue whenFalse => [condition, whenTrue, whenFalse]
  | .functionAssignment _ _ body => [body]
  | .index object dimensions => object :: dimensions
  | .range start stop none => [start, stop]
  | .range start stop (some step) => [start, stop, step]
  | .update target expr => [target, expr]

/-- The label of each child. -/
def labels : Node → List String
  | .constant _ => []
  | .symbol _ => []
  | .operator _ _ args _ => numbered "args" args.length
  | .function _ args => numbered "args" args.length
  | .array items => numbered "items" items.length
  | .assignment .. => ["expr"]
  | .block entries => numbered "blocks" entries.length
  | .conditional .. => ["condition", "trueExpr", "falseExpr"]
  | .functionAssignment .. => ["expr"]
  | .index _ dimensions => "object" :: numbered "dimensions" dimensions.length
  | .range _ _ none => ["start", "end"]
  | .range _ _ (some _) => ["start", "end", "step"]
  | .update .. => ["index", "expr"]
where
  /-- `name[0]`, `name[1]`, … -/
  numbered (name : String) (count : Nat) : List String :=
    (List.range count).map fun i => s!"{name}[{i}]"

/-- The label of one child. -/
def childLabel (node : Node) (i : Nat) : Option String := node.labels[i]?

/-- The node with other children in the places of its own. There have to be as many, and the first
child of an update has to be an index node. -/
def withChildren (node : Node) (children : List Node) : Except NodeError Node :=
  let wrongCount :=
    Except.error (NodeError.childCount node.kind node.children.length children.length)
  match node, children with
  | .constant value, [] => .ok (.constant value)
  | .symbol name, [] => .ok (.symbol name)
  | .operator op fn args implicit, cs =>
      if cs.length = args.length then .ok (.operator op fn cs implicit) else wrongCount
  | .function name args, cs =>
      if cs.length = args.length then .ok (.function name cs) else wrongCount
  | .array items, cs => if cs.length = items.length then .ok (.array cs) else wrongCount
  | .assignment name _, [expr] => .ok (.assignment name expr)
  | .block entries, cs =>
      if cs.length = entries.length then .ok (.block (cs.zip (entries.map Prod.snd)))
      else wrongCount
  | .conditional .., [condition, whenTrue, whenFalse] =>
      .ok (.conditional condition whenTrue whenFalse)
  | .functionAssignment name params _, [body] => .ok (.functionAssignment name params body)
  | .index _ dimensions, object :: cs =>
      if cs.length = dimensions.length then .ok (.index object cs) else wrongCount
  | .range _ _ none, [start, stop] => .ok (.range start stop none)
  | .range _ _ (some _), [start, stop, step] => .ok (.range start stop (some step))
  | .update .., [target, expr] => makeUpdate target expr
  | _, _ => wrongCount

/-- The node with each child replaced by what a function makes of the child and its place. -/
def mapChildren (node : Node) (f : Node → Nat → Node) : Except NodeError Node :=
  node.withChildren (node.children.zipIdx.map fun c => f c.1 c.2)

/-! ## Size -/

mutual

/-- The number of nodes in a tree. -/
def count : Node → Nat
  | .constant _ => 1
  | .symbol _ => 1
  | .operator _ _ args _ => 1 + countAll args
  | .function _ args => 1 + countAll args
  | .array items => 1 + countAll items
  | .assignment _ expr => 1 + count expr
  | .block entries => 1 + countEntries entries
  | .conditional condition whenTrue whenFalse =>
      1 + (count condition + (count whenTrue + count whenFalse))
  | .functionAssignment _ _ body => 1 + count body
  | .index object dimensions => 1 + (count object + countAll dimensions)
  | .range start stop none => 1 + (count start + count stop)
  | .range start stop (some step) => 1 + (count start + (count stop + count step))
  | .update target expr => 1 + (count target + count expr)

/-- The number of nodes in several trees. -/
def countAll : List Node → Nat
  | [] => 0
  | node :: rest => count node + countAll rest

/-- The number of nodes in the statements of a block. -/
def countEntries : List (Node × Bool) → Nat
  | [] => 0
  | (node, _) :: rest => count node + countEntries rest

end

theorem countAll_map_fst (entries : List (Node × Bool)) :
    countAll (entries.map Prod.fst) = countEntries entries := by
  induction entries with
  | nil => rfl
  | cons entry rest ih => simp [countAll, countEntries, ih]

/-- A tree has one node more than its children together. -/
theorem count_eq (node : Node) : node.count = 1 + countAll node.children := by
  match node with
  | .constant _ => rfl
  | .symbol _ => rfl
  | .operator .. => rfl
  | .function .. => rfl
  | .array _ => rfl
  | .assignment .. => rfl
  | .block entries => simp [count, children, countAll_map_fst]
  | .conditional .. => rfl
  | .functionAssignment .. => rfl
  | .index .. => rfl
  | .range _ _ none => rfl
  | .range _ _ (some _) => rfl
  | .update .. => rfl

theorem count_pos (node : Node) : 0 < node.count := by
  rw [count_eq]
  omega

/-! ## Equality -/

mutual

/-- Are two trees the same? Numbers are compared as numbers, so a tree that holds NaN differs from
itself. -/
def equals : Node → Node → Bool
  | .constant v, .constant w => v == w
  | .symbol a, .symbol b => a == b
  | .operator o f xs i, .operator p g ys j => o == p && f == g && equalsAll xs ys && i == j
  | .function f xs, .function g ys => f == g && equalsAll xs ys
  | .array xs, .array ys => equalsAll xs ys
  | .assignment a x, .assignment b y => a == b && equals x y
  | .block xs, .block ys => equalsEntries xs ys
  | .conditional a b c, .conditional x y z => equals a x && equals b y && equals c z
  | .functionAssignment f ps x, .functionAssignment g qs y => f == g && ps == qs && equals x y
  | .index x xs, .index y ys => equals x y && equalsAll xs ys
  | .range a b none, .range x y none => equals a x && equals b y
  | .range a b (some c), .range x y (some z) => equals a x && equals b y && equals c z
  | .update i x, .update j y => equals i j && equals x y
  | _, _ => false

/-- Are two lists of trees the same? -/
def equalsAll : List Node → List Node → Bool
  | [], [] => true
  | x :: xs, y :: ys => equals x y && equalsAll xs ys
  | _, _ => false

/-- Are the statements of two blocks the same? -/
def equalsEntries : List (Node × Bool) → List (Node × Bool) → Bool
  | [], [] => true
  | (x, b) :: xs, (y, c) :: ys => equals x y && b == c && equalsEntries xs ys
  | _, _ => false

end

/-! ## Validity -/

/-- Do the two rules that tie a node to its children hold at this node? -/
def isSound : Node → Bool
  | .operator _ _ args _ => args.length == 1 || args.length == 2
  | .update target _ => target.kind == .index
  | _ => true

/-- Both rules hold at the root, and in all children. -/
inductive Valid : Node → Prop where
  | mk {node : Node} (sound : node.isSound = true) (inside : ∀ c ∈ node.children, Valid c) :
      Valid node

end Node

end Formula
