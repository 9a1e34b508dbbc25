import Formula.Format.Yaml.Scalar

set_option autoImplicit false

/-! # TOML texts

A document of sections: entries `key = value`, one per line, under headers `[section]`. A value is
an integer of 64 bits with a sign, a real number, a truth value or a string in quotes. Neither a
section nor a key within a section stands twice.

    integer = sign? digits | "0x" hexadecimals | "0o" octals | "0b" binaries
    digits  = digit ("_"? digit)*
-/

namespace Formula.Toml

/-- Is the character a blank within a line? -/
def isSpace (c : Char) : Bool := c == ' ' || c == '\t'

/-- A text behind its leading blanks. -/
def skip (cs : List Char) : List Char := cs.dropWhile isSpace

/-- May a comment or a string within a line hold this character? -/
def isShown (c : Char) : Bool := c == '\t' || (0x20 ≤ c.toNat && c.toNat != 0x7F)

/-- Nothing but blanks and a comment. -/
def isBlank (cs : List Char) : Bool :=
  match skip cs with
  | [] => true
  | '#' :: comment => comment.all isShown
  | _ => false

/-- May a bare key hold this character? -/
def isKeyChar (c : Char) : Bool := c.isAlphanum || c == '_' || c == '-'

/-- The next character between double quotes. -/
def quotedChar? : List Char → Option (Char × List Char)
  | [] => none
  | '\\' :: 'u' :: rest => Yaml.numberedChar? 4 rest
  | '\\' :: 'U' :: rest => Yaml.numberedChar? 8 rest
  | '\\' :: c :: rest => if c = '/' then none else (Json.shortEscape? c).map fun c => (c, rest)
  | c :: rest => if c ≠ '\\' ∧ isShown c then some (c, rest) else none

/-- The rest of a string behind its opening double quote, which has fewer than `fuel`
characters. -/
def stringBody? : Nat → List Char → Option (List Char × List Char)
  | 0, _ => none
  | _ + 1, '"' :: rest => some ([], rest)
  | fuel + 1, cs => do
      let (c, rest) ← quotedChar? cs
      let (body, rest) ← stringBody? fuel rest
      some (c :: body, rest)

/-- A string in quotes at the front of a text. -/
def string? : List Char → Option (String × List Char)
  | '"' :: rest => (stringBody? (rest.length + 1) rest).map fun r => (String.ofList r.1, r.2)
  | '\'' :: rest =>
      let body := rest.takeWhile (· != '\'')
      match rest.drop body.length with
      | [] => none
      | _ :: behind => if body.all isShown then some (String.ofList body, behind) else none
  | _ => none

/-- A key, bare or in quotes, at the front of a text. -/
def key? (cs : List Char) : Option (String × List Char) :=
  match string? cs with
  | some r => some r
  | none =>
      match cs.takeWhile isKeyChar with
      | [] => none
      | key => some (String.ofList key, cs.dropWhile isKeyChar)

/-- Characters other than underscores, without the single underscores between them. -/
def joined? : List Char → Option (List Char)
  | [] => none
  | ['_'] => none
  | [c] => some [c]
  | c :: '_' :: rest => if c = '_' then none else (joined? rest).map (c :: ·)
  | c :: rest => if c = '_' then none else (joined? rest).map (c :: ·)

/-- The natural number written by digits to a base. -/
def natural? (base : Nat) (cs : List Char) : Option Nat := joined? cs >>= Yaml.natural? base

/-- A decimal number with its sign. -/
def decimal? (cs : List Char) : Option Int := do
  let (negative, cs) := Decimal.takeSign cs
  let n ← natural? 10 cs
  if cs.head? = some '0' ∧ cs ≠ ['0'] then none
  some (if negative then -Int.ofNat n else Int.ofNat n)

/-- An integer to any of the four bases. -/
def anyInteger? : List Char → Option Int
  | '0' :: 'x' :: rest => (natural? 16 rest).map Int.ofNat
  | '0' :: 'o' :: rest => (natural? 8 rest).map Int.ofNat
  | '0' :: 'b' :: rest => (natural? 2 rest).map Int.ofNat
  | cs => decimal? cs

/-- An integer of 64 bits. -/
def integer? (cs : List Char) : Option Int := (anyInteger? cs).filter (fitsSigned 64)

/-- Does a text without a sign go on as a real number: with a point and a digit, or with a power of
ten, behind its whole part? -/
def isReal (body : List Char) : Bool :=
  let (whole, rest) := Decimal.spanDigits body
  if whole = [] ∨ Yaml.hasNeedlessZero whole then false
  else
    match rest with
    | '.' :: c :: _ => c.isDigit
    | c :: _ => c == 'e' || c == 'E'
    | [] => false

/-- A real number, below the range of doubles if negative but not beyond it, or a word. -/
def real? (cs : List Char) : Option Float :=
  let body := Yaml.unsignedPart cs
  let word := String.ofList body
  let x := Decimal.read? (String.ofList cs)
  if word = "inf" ∨ word = "nan" then x
  else if isReal body then x.filter fun x => x.isFinite || x < 0
  else none

/-- A value that is no string. -/
def word? (cs : List Char) : Option Document :=
  let word := String.ofList cs
  if word = "true" then some (.bool true)
  else if word = "false" then some (.bool false)
  else
    match integer? cs with
    | some n => some (.integer n)
    | none => (real? cs).map .real

/-- Does a character end a value that is no string? -/
def endsWord (c : Char) : Bool := isSpace c || c == '#'

/-- The value that fills the rest of a line. -/
def value? (cs : List Char) : Option Document :=
  match string? cs with
  | some (s, rest) => if isBlank rest then some (.string s) else none
  | none =>
      if isBlank (cs.dropWhile fun c => !endsWord c) then word? (cs.takeWhile fun c => !endsWord c)
      else none

/-- A line of a TOML text. -/
inductive Line where
  | blank
  | header (name : String)
  | entry (key : String) (value : Document)

/-- Reads a line. -/
def line? (cs : List Char) : Option Line :=
  if isBlank cs then some .blank
  else
    match skip cs with
    | '[' :: rest => do
        let (name, rest) ← key? (skip rest)
        match skip rest with
          | ']' :: rest => if isBlank rest then some (.header name) else none
          | _ => none
    | cs => do
        let (key, rest) ← key? cs
        match skip rest with
          | '=' :: rest => (value? (skip rest)).map (.entry key)
          | _ => none

/-- A section with its entries. -/
abbrev Section := String × List (String × Document)

/-- Puts a line into a document, whose entries outside of sections are `root` and whose sections
are `done`, the last one first. -/
def add (root : List (String × Document)) (done : List Section) :
    Line → Option (List (String × Document) × List Section)
  | .blank => some (root, done)
  | .header name =>
      if (root.lookup name).isSome ∨ (done.lookup name).isSome then none
      else some (root, (name, []) :: done)
  | .entry key value =>
      match done with
      | [] => if (root.lookup key).isSome then none else some (root ++ [(key, value)], [])
      | (name, entries) :: before =>
          if (entries.lookup key).isSome then none
          else some (root, (name, entries ++ [(key, value)]) :: before)

/-- A text whose lines all end with a line feed alone. -/
def plainEnds : List Char → List Char
  | '\r' :: '\n' :: rest => '\n' :: plainEnds rest
  | c :: rest => c :: plainEnds rest
  | [] => []

/-- The lines that a text holds. -/
def lines? (cs : List Char) : Option (List Line) := ((plainEnds cs).splitOn '\n').mapM line?

/-- The document that a text holds. -/
def parse (text : String) : Option Document := do
  let lines ← lines? text.toList
  let (root, done) ← lines.foldlM (fun r line => add r.1 r.2 line) ([], [])
  some (.mapping (root ++ done.reverse.map fun s => (s.1, .mapping s.2)))

/-! ## Writing -/

/-- A value, unless it is an integer of more than 64 bits with its sign, or no scalar. -/
def scalarText? : Document → Option String
  | .bool b => some (toString b)
  | .integer n => if fitsSigned 64 n then some (toString n) else none
  | .string s => some (String.ofList (Json.quoted s))
  | _ => none

/-- The line of an entry. -/
def entryText? (e : String × Document) : Option String :=
  (scalarText? e.2).map fun value => e.1 ++ " = " ++ value ++ "\n"

/-- The lines of a section. -/
def sectionText? : String × Document → Option String
  | (name, .mapping entries) => do
      let lines ← entries.mapM entryText?
      some ("[" ++ name ++ "]\n" ++ "".intercalate lines)
  | _ => none

/-- The TOML text of a document of sections. -/
def write? : Document → Option String
  | .mapping sections => (sections.mapM sectionText?).map "\n".intercalate
  | _ => none

end Formula.Toml
