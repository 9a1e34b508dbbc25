import Formula.Format.Yaml.Scalar

set_option autoImplicit false

/-! # Lines of YAML texts

`linesOf` cuts a text into its lines, without their comments and without blank lines. A quoted
string is not cut: the line ends inside it are folded, so that one becomes a space and of several
the first one goes, together with the blanks around them. A line end behind a backslash goes
without a trace.
-/

namespace Formula.Yaml

/-- A line that holds something, without comment and outer blanks. -/
structure Line where
  indent : Nat
  text : List Char

/-- May a character stand in a YAML text? -/
def isAllowed (c : Char) : Bool :=
  let n := c.toNat
  n == 0x9 || n == 0xA || n == 0xD || (0x20 ≤ n && n ≤ 0x7E) || n == 0x85 ||
    (0xA0 ≤ n && n ≤ 0xFFFD && n != 0xFEFF) || 0x10000 ≤ n

/-- Is the character a blank within a line? -/
def isBlank (c : Char) : Bool := c == ' ' || c == '\t'

/-- Does the character end a line? -/
def isBreak (c : Char) : Bool :=
  c == '\n' || c == '\r' || c == '\u0085' || c == '\u2028' || c == '\u2029'

/-- A line end inside a quoted string. -/
def breakChar (c : Char) : Char := if c == '\r' || c == '\u0085' then '\n' else c

/-- A list of characters without the blanks at its end. -/
def trimEnd (cs : List Char) : List Char := (cs.reverse.dropWhile isBlank).reverse

/-- Does a character separate items of a flow collection? -/
def isFlowMark (c : Char) : Bool := [',', '[', ']', '\x7b', '\x7d'].contains c

/-- Does a quote behind this character open a string? -/
def opensQuote (before : Char) : Bool := isBlank before || before == ':' || isFlowMark before

/-! ## Cutting -/

/-- Where a character of a text stands. -/
inductive Place where
  | outside
  | comment
  /-- Behind a single quote that ends a string unless another one follows. -/
  | behindQuote
  /-- In a string that ends with `quote`, perhaps behind a backslash. -/
  | inside (quote : Char) (escaped : Bool)
  /-- Among the line ends inside a string, the first of which may be escaped. -/
  | between (quote : Char) (breaks : List Char) (escaped : Bool)

/-- A text cut up to some place: the lines before and the characters of the last line, both from
the last one on. -/
structure Cut where
  done : List (List Char)
  line : List Char
  place : Place

namespace Cut

/-- What stands for the line ends between two parts of a string. -/
def folded (breaks : List Char) (escaped : Bool) : List Char :=
  match breaks, escaped with
  | _ :: rest, true => rest
  | ['\n'], false => [' ']
  | '\n' :: rest, false => rest
  | breaks, _ => breaks

/-- Takes a character inside a string. -/
def takeInside (cut : Cut) (quote : Char) (escaped : Bool) (c : Char) : Cut :=
  if isBreak c then
    let line := if escaped then cut.line.tail else cut.line.dropWhile isBlank
    { cut with line := line, place := .between quote [breakChar c] escaped }
  else
    let place :=
      if escaped then .inside quote false
      else if c = quote then (if quote = '\'' then .behindQuote else .outside)
      else .inside quote (quote == '"' && c == '\\')
    { cut with line := c :: cut.line, place := place }

/-- Takes a character outside of strings and comments. -/
def takeOutside (cut : Cut) (c : Char) : Cut :=
  let before := cut.line.head?.getD ' '
  if isBreak c then ⟨cut.line :: cut.done, [], .outside⟩
  else if c = '#' ∧ isBlank before then { cut with place := .comment }
  else
    let opens := (c == '"' || c == '\'') && opensQuote before
    { cut with line := c :: cut.line, place := if opens then .inside c false else .outside }

/-- Takes the next character. -/
def take (cut : Cut) (c : Char) : Cut :=
  match cut.place with
  | .outside => cut.takeOutside c
  | .comment => if isBreak c then cut.takeOutside c else cut
  | .behindQuote => if c = '\'' then cut.takeInside c true c else cut.takeOutside c
  | .inside quote escaped => cut.takeInside quote escaped c
  | .between quote breaks escaped =>
      if isBlank c then cut
      else if isBreak c then
        { cut with place := .between quote (breaks ++ [breakChar c]) escaped }
      else
        let line := (folded breaks escaped).reverse ++ cut.line
        { cut with line := line }.takeInside quote false c

/-- The lines of a text. -/
def lines (cs : List Char) : List (List Char) :=
  let cut := cs.foldl take ⟨[], [], .outside⟩
  ((cut.line :: cut.done).map List.reverse).reverse

end Cut

/-- A line that holds something. One of blanks only holds something if a tab is among them, which
is no indentation. -/
def Line.ofChars? (cs : List Char) : Option Line :=
  let behind := cs.dropWhile (· == ' ')
  if behind = [] then none
  else
    let text := trimEnd behind
    some ⟨cs.length - behind.length, if text = [] then ['\t'] else text⟩

/-- A text whose lines all end with one character. -/
def singleBreaks : List Char → List Char
  | '\r' :: '\n' :: rest => '\n' :: singleBreaks rest
  | c :: rest => c :: singleBreaks rest
  | [] => []

/-- The lines of a text that hold something. -/
def linesOf (cs : List Char) : List Line := (Cut.lines (singleBreaks cs)).filterMap Line.ofChars?

end Formula.Yaml
