import Formula.Decimal.Literal
import Formula.Document
import Formula.Format.Json

set_option autoImplicit false

/-! # Scalars in YAML texts

A plain scalar is null, a truth value, a number or else a string, by its spelling:

    null     = "null" | "Null" | "NULL" | "~"
    boolean  = "true" | "True" | "TRUE" | "false" | "False" | "FALSE"
    integer  = sign? (digits | "0x" hexadecimals | "0o" octals | "0b" binaries)
    real     = sign? ".inf" | ".nan" | any other spelling of a finite number

where digits with a needless zero in front are a string. A quoted scalar is a string.
-/

namespace Formula.Yaml

/-- The digit that a character is to a base. -/
def digit? (base : Nat) (c : Char) : Option Nat := do
  let d ← Json.hexDigit? c
  if d < base then some d else none

/-- The natural number written by digits to a base. -/
def natural? (base : Nat) : List Char → Option Nat
  | [] => none
  | cs => cs.foldlM (fun n c => (digit? base c).map (base * n + ·)) 0

/-- Digits of which the first is a needless zero. -/
def hasNeedlessZero (cs : List Char) : Bool :=
  match cs with
  | '0' :: c :: rest => (c :: rest).all Char.isDigit
  | _ => false

/-- The natural number that a text without a sign is, to any of the four bases. -/
def unsigned? : List Char → Option Nat
  | '0' :: 'x' :: rest => natural? 16 rest
  | '0' :: 'o' :: rest => natural? 8 rest
  | '0' :: 'b' :: rest => natural? 2 rest
  | cs => if hasNeedlessZero cs then none else natural? 10 cs

/-- The integer that a text is. -/
def integer? : List Char → Option Int
  | '-' :: rest => (unsigned? rest).map fun n => -Int.ofNat n
  | '+' :: rest => (unsigned? rest).map Int.ofNat
  | rest => (unsigned? rest).map Int.ofNat

/-- A text without its sign. -/
def unsignedPart : List Char → List Char
  | '-' :: rest => rest
  | '+' :: rest => rest
  | rest => rest

/-- The real number that a text is. -/
def real? (cs : List Char) : Option Float :=
  let isInfinity (word : String) : Bool := word == ".inf" || word == ".Inf" || word == ".INF"
  let word := String.ofList cs
  if isInfinity word then some (Float.ofBits 0x7ff0000000000000)
  else if cs.head? = some '+' ∧ isInfinity (String.ofList cs.tail) then
    some (Float.ofBits 0x7ff0000000000000)
  else if cs.head? = some '-' ∧ isInfinity (String.ofList cs.tail) then
    some (Float.ofBits 0xfff0000000000000)
  else if word = ".nan" ∨ word = ".NaN" ∨ word = ".NAN" then
    some (Float.ofBits 0x7ff8000000000000)
  else if hasNeedlessZero (unsignedPart cs) then none
  else (Decimal.read? word).filter Float.isFinite

/-- Does an integer fit into some bits, with or without a sign? -/
def fits (bits : Nat) (n : Int) : Bool := fitsSigned bits n || fitsUnsigned bits n

/-- The document of a text that is no integer. -/
def realOrString (cs : List Char) : Document :=
  match real? cs with
  | some x => .real x
  | none => .string (String.ofList cs)

/-- What a plain scalar stands for; nothing written stands for `empty`. An integer has 128 bits at
most. -/
def plain (empty : Document) (cs : List Char) : Document :=
  let word := String.ofList cs
  if cs = [] then empty
  else if word = "null" ∨ word = "Null" ∨ word = "NULL" ∨ word = "~" then .null
  else if word = "true" ∨ word = "True" ∨ word = "TRUE" then .bool true
  else if word = "false" ∨ word = "False" ∨ word = "FALSE" then .bool false
  else
    match integer? cs with
    | some n => if fits 128 n then .integer n else realOrString cs
    | none => realOrString cs

/-- Is a number no integer of more than 64 bits? -/
def isNarrow : Document → Bool
  | .integer n => fits 64 n
  | _ => true

/-- Characters that do not start a plain scalar. -/
def isIndicator (c : Char) : Bool :=
  [',', '[', ']', '\x7b', '\x7d', '#', '&', '*', '!', '|', '>', '\'', '"', '%', '@',
    '\x60'].contains c

/-- May a plain scalar start with this text? -/
def startsPlain : List Char → Bool
  | [] => false
  | c :: rest =>
      if c == '-' || c == '?' || c == ':' then
        match rest with
        | [] => false
        | d :: _ => d != ' ' && d != '\t' && d != '\n'
      else c != ' ' && c != '\t' && !isIndicator c

/-- The character behind a backslash, by one letter. -/
def shortEscape? : Char → Option Char
  | '0' => some '\x00'
  | 'a' => some '\x07'
  | 'b' => some '\x08'
  | 't' => some '\t'
  | '\t' => some '\t'
  | 'n' => some '\n'
  | 'v' => some '\x0b'
  | 'f' => some '\x0c'
  | 'r' => some '\r'
  | 'e' => some '\x1b'
  | ' ' => some ' '
  | '"' => some '"'
  | '/' => some '/'
  | '\\' => some '\\'
  | 'N' => some '\u0085'
  | '_' => some '\u00a0'
  | 'L' => some '\u2028'
  | 'P' => some '\u2029'
  | _ => none

/-- The character whose number is written by the first `count` digits. -/
def numberedChar? (count : Nat) (cs : List Char) : Option (Char × List Char) := do
  if (cs.take count).length < count then none
  let n ← natural? 16 (cs.take count)
  if n.isValidChar then some (Char.ofNat n, cs.drop count) else none

/-- The next character between double quotes. -/
def quotedChar? : List Char → Option (Char × List Char)
  | [] => none
  | '\\' :: 'x' :: rest => numberedChar? 2 rest
  | '\\' :: 'u' :: rest => numberedChar? 4 rest
  | '\\' :: 'U' :: rest => numberedChar? 8 rest
  | '\\' :: c :: rest => (shortEscape? c).map fun c => (c, rest)
  | c :: rest => if c = '\\' then none else some (c, rest)

/-- The rest of a string behind its opening double quote. -/
def doubleQuoted? : Nat → List Char → Option (List Char × List Char)
  | 0, _ => none
  | _ + 1, '"' :: rest => some ([], rest)
  | fuel + 1, cs => do
      let (c, rest) ← quotedChar? cs
      let (body, rest) ← doubleQuoted? fuel rest
      some (c :: body, rest)

/-- The rest of a string behind its opening single quote; two quotes stand for one. -/
def singleQuoted? : List Char → Option (List Char × List Char)
  | [] => none
  | '\'' :: '\'' :: rest => (singleQuoted? rest).map fun r => ('\'' :: r.1, r.2)
  | '\'' :: rest => some ([], rest)
  | c :: rest => (singleQuoted? rest).map fun r => (c :: r.1, r.2)

/-- A quoted string at the front of a text. -/
def quoted? : List Char → Option (String × List Char)
  | '"' :: rest => (doubleQuoted? (rest.length + 1) rest).map fun r => (String.ofList r.1, r.2)
  | '\'' :: rest => (singleQuoted? rest).map fun r => (String.ofList r.1, r.2)
  | _ => none

end Formula.Yaml
