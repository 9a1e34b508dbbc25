import Formula.Node.Precedence
import Formula.Text.Letter

set_option autoImplicit false

/-! # The text of a tree

One line of plain text for an expression, a line per statement for a block. Parentheses follow
from binding strength alone: on the side to which an operator groups, a part of equal strength
goes without them.
-/

namespace Formula.Node

/-- Puts a text into parentheses where they are needed. -/
def parenthesized (needed : Bool) (s : String) : String := if needed then "(" ++ s ++ ")" else s

/-- A string literal: backslashes and quotes are escaped. -/
def quoted (s : String) : String :=
  let escape (c : Char) : List Char := if c = '\\' ∨ c = '"' then ['\\', c] else [c]
  "\"" ++ String.ofList (s.toList.flatMap escape) ++ "\""

/-- The text of a literal. -/
def literalText : Literal → String
  | .number x => numberText x
  | .string s => quoted s
  | .boolean b => toString b
  | .null => "null"

/-- What stands between a unary operator and its argument: a blank behind an operator that is
spelled with letters. -/
def unaryGap (op : String) : String := if op.toList.all Text.isLetter then " " else ""

/-- The text of a bound of a range. -/
def rangePart (node : Node) (s : String) : String :=
  parenthesized (node.precedence ≤ Precedence.range) s

mutual

/-- The text of a tree. -/
def text : Node → String
  | .constant value => literalText value
  | .symbol name => name
  | .operator op _ [arg] implicit =>
      let own := Precedence.operator op 1 implicit
      let inner := parenthesized (arg.precedence < own) (text arg)
      if Precedence.isTrailing op then inner ++ op else op ++ unaryGap op ++ inner
  | .operator op _ [left, right] implicit =>
      let own := Precedence.operator op 2 implicit
      let toRight := Precedence.groupsRight op
      let l :=
        parenthesized (left.precedence < own || (left.precedence == own && toRight)) (text left)
      let r :=
        parenthesized (right.precedence < own || (right.precedence == own && !toRight)) (text right)
      if implicit then l ++ " " ++ r else l ++ " " ++ op ++ " " ++ r
  | .operator _ fn args _ => fn ++ "(" ++ ", ".intercalate (textAll args) ++ ")"
  | .function name args => name ++ "(" ++ ", ".intercalate (textAll args) ++ ")"
  | .array items => "[" ++ ", ".intercalate (textAll items) ++ "]"
  | .assignment name expr => name ++ " = " ++ text expr
  | .block entries => "\n".intercalate (textEntries entries)
  | .conditional condition whenTrue whenFalse =>
      let part (node : Node) (strength : Nat) (s : String) : String :=
        parenthesized (node.precedence < strength) s
      part condition (Precedence.conditional + 1) (text condition) ++ " ? " ++
        part whenTrue Precedence.conditional (text whenTrue) ++ " : " ++
        part whenFalse Precedence.conditional (text whenFalse)
  | .functionAssignment name params body =>
      name ++ "(" ++ ", ".intercalate params ++ ") = " ++ text body
  | .index object dimensions =>
      parenthesized (object.precedence < Precedence.atom) (text object) ++ "[" ++
        ", ".intercalate (textAll dimensions) ++ "]"
  | .range start stop none =>
      rangePart start (text start) ++ ":" ++ rangePart stop (text stop)
  | .range start stop (some step) =>
      rangePart start (text start) ++ ":" ++ rangePart step (text step) ++ ":" ++
        rangePart stop (text stop)
  | .update target expr => text target ++ " = " ++ text expr

/-- The texts of several trees. -/
def textAll : List Node → List String
  | [] => []
  | node :: rest => text node :: textAll rest

/-- The lines of a block; a statement whose value is not shown ends with a semicolon. -/
def textEntries : List (Node × Bool) → List String
  | [] => []
  | (node, visible) :: rest => (if visible then text node else text node ++ ";") :: textEntries rest

end

end Formula.Node
