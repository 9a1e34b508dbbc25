import Formula.Node.Text

set_option autoImplicit false

/-! # The TeX of a tree

Quotients are fractions, powers are superscripts, so that their parts need no parentheses where
the layout already groups them; everywhere else binding strength decides as in the text.
-/

namespace Formula.Node

/-- A TeX group. -/
def grouped (s : String) : String := "\x7b" ++ s ++ "\x7d"

/-- A TeX command applied to a group. -/
def command (name s : String) : String := "\\" ++ name ++ grouped s

/-- Puts TeX into stretched parentheses where they are needed. -/
def stretched (needed : Bool) (s : String) : String :=
  if needed then "\\left(" ++ s ++ "\\right)" else s

/-- The Greek letters that TeX knows by name. -/
def greek : List String :=
  ["alpha", "beta", "gamma", "delta", "epsilon", "zeta", "eta", "theta", "iota", "kappa",
    "lambda", "mu", "nu", "xi", "pi", "rho", "sigma", "tau", "upsilon", "phi", "chi", "psi",
    "omega", "Gamma", "Delta", "Theta", "Lambda", "Xi", "Pi", "Sigma", "Upsilon", "Phi", "Psi",
    "Omega"]

/-- A name: a Greek letter, a single letter in italics, or a word in roman type. -/
def texSymbol (name : String) : String :=
  if name ∈ greek then "\\" ++ name
  else if name.length = 1 then name
  else command "mathrm" name

/-- The TeX of a literal. -/
def texLiteral : Literal → String
  | .number x =>
      if x.isInf then (if 0 < x then "\\infty" else "-\\infty") else numberText x
  | .string s => command "mathtt" ("\"" ++ s ++ "\"")
  | .boolean b => command "mathrm" (toString b)
  | .null => command "mathrm" "null"

/-- The sign of a unary operator. -/
def texUnary (op : String) : String := if op = "not" then "\\neg " else op

/-- The sign of a binary operator. -/
def texBinary (op : String) : String :=
  if op ∈ ["*", ".*"] then "\\cdot"
  else if op = "==" then "="
  else if op = "!=" then "\\neq"
  else if op = "<=" then "\\leq"
  else if op = ">=" then "\\geq"
  else if op ∈ ["and", "&&"] then "\\wedge"
  else if op ∈ ["or", "||"] then "\\vee"
  else if op = "xor" then "\\veebar"
  else if op ∈ ["%", "mod"] then "\\mod"
  else if op = "to" then "\\rightarrow"
  else op

/-- Are there items, all of them arrays? -/
def allRows (items : List Node) : Bool :=
  !items.isEmpty && items.all fun item => item.kind == .array

/-- The TeX of a bound of a range. -/
def texPart (node : Node) (s : String) : String :=
  stretched (node.precedence ≤ Precedence.range) s

mutual

/-- The TeX of a tree. -/
def tex : Node → String
  | .constant value => texLiteral value
  | .symbol name => texSymbol name
  | .operator op _ [arg] implicit =>
      let inner := stretched (arg.precedence < Precedence.operator op 1 implicit) (tex arg)
      if op = "'" then grouped inner ++ "^\\top"
      else if Precedence.isTrailing op then inner ++ op
      else texUnary op ++ inner
  | .operator op _ [left, right] implicit =>
      let own := Precedence.operator op 2 implicit
      if op = "/" then "\\frac" ++ grouped (tex left) ++ grouped (tex right)
      else if Precedence.groupsRight op then
        grouped (stretched (left.precedence ≤ own) (tex left)) ++ "^" ++ grouped (tex right)
      else
        let l := stretched (left.precedence < own) (tex left)
        let r := stretched (right.precedence ≤ own && !(op == "+" || op == "*")) (tex right)
        let sign := texBinary op
        if implicit then l ++ "~" ++ r
        else if sign.startsWith "\\" then l ++ sign ++ " " ++ r
        else l ++ sign ++ r
  | .operator _ fn args _ =>
      command "mathrm" fn ++ "\\left(" ++ ",".intercalate (texAll args) ++ "\\right)"
  | .function name [arg] =>
      if name = "sqrt" then command "sqrt" (tex arg)
      else if name = "abs" then "\\left|" ++ tex arg ++ "\\right|"
      else texSymbol name ++ "\\left(" ++ tex arg ++ "\\right)"
  | .function name args =>
      texSymbol name ++ "\\left(" ++ ",".intercalate (texAll args) ++ "\\right)"
  | .array items =>
      let rows := if allRows items then texRows items else texAll items
      command "begin" "bmatrix" ++ "\\\\".intercalate rows ++ command "end" "bmatrix"
  | .assignment name expr => texSymbol name ++ ":=" ++ tex expr
  | .block entries => "\\;\\;\n".intercalate (texEntries entries)
  | .conditional condition whenTrue whenFalse =>
      command "begin" "cases" ++ " " ++ grouped (tex whenTrue) ++ ", &\\quad" ++
        grouped (command "text" "if " ++ "\\;" ++ tex condition) ++ "\\\\" ++
        grouped (tex whenFalse) ++ ", &\\quad" ++ grouped (command "text" "otherwise") ++
        command "end" "cases"
  | .functionAssignment name params body =>
      texSymbol name ++ "\\left(" ++ ",".intercalate (params.map texSymbol) ++ "\\right):=" ++
        tex body
  | .index object dimensions =>
      stretched (object.precedence < Precedence.atom) (tex object) ++ "_" ++
        grouped ("\\left[" ++ ",".intercalate (texAll dimensions) ++ "\\right]")
  | .range start stop none => texPart start (tex start) ++ ":" ++ texPart stop (tex stop)
  | .range start stop (some step) =>
      texPart start (tex start) ++ ":" ++ texPart step (tex step) ++ ":" ++ texPart stop (tex stop)
  | .update target expr => tex target ++ ":=" ++ tex expr

/-- The TeX of several trees. -/
def texAll : List Node → List String
  | [] => []
  | node :: rest => tex node :: texAll rest

/-- The rows of a matrix of arrays. -/
def texRows : List Node → List String
  | [] => []
  | .array items :: rest => "&".intercalate (texAll items) :: texRows rest
  | node :: rest => tex node :: texRows rest

/-- The lines of a block. -/
def texEntries : List (Node × Bool) → List String
  | [] => []
  | (node, _) :: rest => tex node :: texEntries rest

end

end Formula.Node
