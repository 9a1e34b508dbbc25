import Formula.Decimal.Layout
import Formula.Decimal.Scaled
import Formula.Document

set_option autoImplicit false

/-! # JSON texts

`parse` reads a document from a JSON text and `write` writes one; `writePretty` spreads it over
lines. A number without a point or a power that fits 64 bits is an integer, any other number is a
real one and read by scaling; minus zero is real. Numbers must be finite, and arrays and objects
nest to `maxNesting` levels; `parseFreely` holds a text to neither of the two.
-/

namespace Formula.Json

/-- The deepest nesting of arrays and objects. -/
def maxNesting : Nat := 127

/-! ## Reading -/

/-- Is the character a JSON blank? -/
def isSpace (c : Char) : Bool := c == ' ' || c == '\t' || c == '\n' || c == '\r'

/-- A text behind its leading blanks. -/
def skip (cs : List Char) : List Char := cs.dropWhile isSpace

/-- The value of a hexadecimal digit. -/
def hexDigit? (c : Char) : Option Nat :=
  if '0' ≤ c ∧ c ≤ '9' then some (c.toNat - 48)
  else if 'a' ≤ c ∧ c ≤ 'f' then some (c.toNat - 87)
  else if 'A' ≤ c ∧ c ≤ 'F' then some (c.toNat - 55)
  else none

/-- A 16-bit unit in four hexadecimal digits. -/
def hexUnit? : List Char → Option (Nat × List Char)
  | a :: b :: c :: d :: rest => do
      let a ← hexDigit? a
      let b ← hexDigit? b
      let c ← hexDigit? c
      let d ← hexDigit? d
      some (((a * 16 + b) * 16 + c) * 16 + d, rest)
  | _ => none

/-- The character behind `\u`: one unit, or two that form a pair of surrogates. -/
def unicodeEscape? (cs : List Char) : Option (Char × List Char) := do
  let (unit, rest) ← hexUnit? cs
  if 0xD800 ≤ unit ∧ unit ≤ 0xDBFF then
    match rest with
    | '\\' :: 'u' :: more =>
        let (low, rest) ← hexUnit? more
        if 0xDC00 ≤ low ∧ low ≤ 0xDFFF then
          some (Char.ofNat (0x10000 + (unit - 0xD800) * 0x400 + (low - 0xDC00)), rest)
        else none
    | _ => none
  else if 0xDC00 ≤ unit ∧ unit ≤ 0xDFFF then none
  else some (Char.ofNat unit, rest)

/-- The character of an escape with one letter. -/
def shortEscape? : Char → Option Char
  | '"' => some '"'
  | '\\' => some '\\'
  | '/' => some '/'
  | 'b' => some '\x08'
  | 'f' => some '\x0c'
  | 'n' => some '\n'
  | 'r' => some '\r'
  | 't' => some '\t'
  | _ => none

/-- The next character of a string. -/
def stringChar? : List Char → Option (Char × List Char)
  | [] => none
  | '\\' :: 'u' :: rest => unicodeEscape? rest
  | '\\' :: c :: rest => (shortEscape? c).map fun c => (c, rest)
  | c :: rest => if c = '\\' ∨ c.toNat < 0x20 then none else some (c, rest)

/-- The rest of a string behind its opening quote, which has at most `fuel` characters. -/
def stringBody? : Nat → List Char → Option (List Char × List Char)
  | 0, _ => none
  | _ + 1, '"' :: rest => some ([], rest)
  | fuel + 1, cs => do
      let (c, rest) ← stringChar? cs
      let (body, rest) ← stringBody? fuel rest
      some (c :: body, rest)

/-- A string behind its opening quote. -/
def string? (cs : List Char) : Option (String × List Char) :=
  (stringBody? (cs.length + 1) cs).map fun r => (String.ofList r.1, r.2)

/-- The digits of a whole part: a zero alone, or digits that do not start with one. -/
def wholeDigits? (cs : List Char) : Option (List Char × List Char) :=
  match Decimal.spanDigits cs with
  | ([], _) => none
  | (['0'], rest) => some (['0'], rest)
  | ('0' :: _, _) => none
  | (digits, rest) => some (digits, rest)

/-- The places behind a point, if there is one. -/
def places? : List Char → Option (List Char × List Char)
  | '.' :: rest =>
      match Decimal.spanDigits rest with
      | ([], _) => none
      | (digits, rest) => some (digits, rest)
  | rest => some ([], rest)

/-- The power of ten, if there is one. -/
def power? : List Char → Option (Option Int × List Char)
  | [] => some (none, [])
  | c :: rest =>
      if c = 'e' ∨ c = 'E' then
        let (negative, more) := Decimal.takeSign rest
        match Decimal.spanDigits more with
        | ([], _) => none
        | (digits, rest) =>
            let n := Int.ofNat (Decimal.digitsValue digits)
            some (some (if negative then -n else n), rest)
      else some (none, c :: rest)

/-- A real number; one beyond the range of doubles is infinite. -/
def realNumber (negative : Bool) (whole places : List Char) (power : Int) : Document :=
  let x := Decimal.scaled whole places power
  .real (if negative then -x else x)

/-- A whole number: an integer of 64 bits, with or without a sign, or else a real number. -/
def wholeNumber (negative : Bool) (whole : List Char) : Document :=
  let n := Int.ofNat (Decimal.digitsValue whole)
  if negative ∧ n ≠ 0 ∧ fitsSigned 64 (-n) then .integer (-n)
  else if !negative ∧ fitsUnsigned 64 n then .integer n
  else realNumber negative whole [] 0

/-- A number. -/
def number? (cs : List Char) : Option (Document × List Char) := do
  let (negative, cs) := match cs with
    | '-' :: rest => (true, rest)
    | cs => (false, cs)
  let (whole, rest) ← wholeDigits? cs
  let (places, rest) ← places? rest
  let (power, rest) ← power? rest
  if places = [] ∧ power = none then some (wholeNumber negative whole, rest)
  else some (realNumber negative whole places (power.getD 0), rest)

/-- A text behind a word it starts with. -/
def word? (word cs : List Char) : Option (List Char) :=
  if word.isPrefixOf cs then some (cs.drop word.length) else none

/-- A value that is no array and no object. -/
def simple? : List Char → Option (Document × List Char)
  | '"' :: rest => (string? rest).map fun r => (.string r.1, r.2)
  | 'n' :: rest => (word? ['u', 'l', 'l'] rest).map fun r => (.null, r)
  | 't' :: rest => (word? ['r', 'u', 'e'] rest).map fun r => (.bool true, r)
  | 'f' :: rest => (word? ['a', 'l', 's', 'e'] rest).map fun r => (.bool false, r)
  | cs => number? cs

/-- A key and its colon. -/
def key? (cs : List Char) : Option (String × List Char) :=
  match skip cs with
  | '"' :: rest => do
      let (key, rest) ← string? rest
      match skip rest with
        | ':' :: rest => some (key, rest)
        | _ => none
  | _ => none

mutual

/-- A value, which may open `levels` further levels; `fuel` bounds the length of the text. -/
def value? (levels : Nat) : Nat → List Char → Option (Document × List Char)
  | 0, _ => none
  | fuel + 1, cs =>
      match skip cs, levels with
      | '[' :: rest, levels + 1 =>
          match skip rest with
          | ']' :: rest => some (.sequence [], rest)
          | rest => (items? levels fuel rest).map fun r => (.sequence r.1, r.2)
      | '\x7b' :: rest, levels + 1 =>
          match skip rest with
          | '\x7d' :: rest => some (.mapping [], rest)
          | rest => (members? levels fuel rest).map fun r => (.mapping r.1, r.2)
      | cs, _ => simple? cs

/-- The items of an array from its next item on. -/
def items? (levels : Nat) : Nat → List Char → Option (List Document × List Char)
  | 0, _ => none
  | fuel + 1, cs => do
      let (item, rest) ← value? levels fuel cs
      match skip rest with
        | ',' :: rest => (items? levels fuel rest).map fun r => (item :: r.1, r.2)
        | ']' :: rest => some ([item], rest)
        | _ => none

/-- The members of an object from its next member on. -/
def members? (levels : Nat) : Nat → List Char → Option (List (String × Document) × List Char)
  | 0, _ => none
  | fuel + 1, cs => do
      let (key, rest) ← key? cs
      let (item, rest) ← value? levels fuel rest
      match skip rest with
        | ',' :: rest => (members? levels fuel rest).map fun r => ((key, item) :: r.1, r.2)
        | '\x7d' :: rest => some ([(key, item)], rest)
        | _ => none

end

/-- Is a number finite? -/
def isFinite : Document → Bool
  | .real x => x.isFinite
  | _ => true

/-- A value that may open `levels` levels and holds finite numbers only. -/
def finiteValue? (levels : Nat) (cs : List Char) : Option (Document × List Char) :=
  (value? levels (cs.length + 1) cs).filter fun r => r.1.all isFinite

/-- The value at the front of a text, and the text behind it. -/
def front? (cs : List Char) : Option (Document × List Char) := finiteValue? maxNesting cs

/-- The document that a text holds, if nothing but blanks stands behind it. -/
def onlyValue? (r : Document × List Char) : Option Document :=
  if skip r.2 = [] then some r.1 else none

/-- The document that a text holds. -/
def parse (text : String) : Option Document := front? text.toList >>= onlyValue?

/-- The document that a text holds, however deep it is and however large its numbers are. -/
def parseFreely (text : String) : Option Document :=
  let cs := text.toList
  value? cs.length (cs.length + 1) cs >>= onlyValue?

/-! ## Writing -/

/-- One hexadecimal digit. -/
def hexDigit (n : Nat) : Char := Nat.digitChar n

/-- A character inside a string. -/
def escape (c : Char) : List Char :=
  match c with
  | '"' => ['\\', '"']
  | '\\' => ['\\', '\\']
  | '\n' => ['\\', 'n']
  | '\r' => ['\\', 'r']
  | '\t' => ['\\', 't']
  | '\x08' => ['\\', 'b']
  | '\x0c' => ['\\', 'f']
  | c =>
      if c.toNat < 0x20 then
        ['\\', 'u', '0', '0', hexDigit (c.toNat / 16), hexDigit (c.toNat % 16)]
      else [c]

/-- A string in quotes. -/
def quoted (s : String) : List Char := '"' :: (s.toList.flatMap escape ++ ['"'])

/-- A value that is no array and no object. -/
def simple : Document → List Char
  | .bool b => (toString b).toList
  | .integer n => (toString n).toList
  | .real x => (Decimal.jsonText x).toList
  | .string s => quoted s
  | _ => ['n', 'u', 'l', 'l']

mutual

/-- The compact text of a document. -/
def chars : Document → List Char
  | .sequence items => '[' :: (charsItems items ++ [']'])
  | .mapping entries => '\x7b' :: (charsMembers entries ++ ['\x7d'])
  | d => simple d

/-- Items with commas between them. -/
def charsItems : List Document → List Char
  | [] => []
  | [d] => chars d
  | d :: rest => chars d ++ ',' :: charsItems rest

/-- Members with commas between them. -/
def charsMembers : List (String × Document) → List Char
  | [] => []
  | [(key, d)] => quoted key ++ ':' :: chars d
  | (key, d) :: rest => quoted key ++ ':' :: (chars d ++ ',' :: charsMembers rest)

end

/-- The compact JSON text of a document. -/
def write (d : Document) : String := String.ofList (chars d)

/-- A new line, indented by two blanks for each level. -/
def newLine (level : Nat) : List Char := '\n' :: List.replicate (2 * level) ' '

mutual

/-- The text of a document at a level of nesting, one item or member per line. -/
def pretty (level : Nat) : Document → List Char
  | .sequence [] => ['[', ']']
  | .sequence items => '[' :: (prettyItems (level + 1) items ++ newLine level ++ [']'])
  | .mapping [] => ['\x7b', '\x7d']
  | .mapping entries => '\x7b' :: (prettyMembers (level + 1) entries ++ newLine level ++ ['\x7d'])
  | d => simple d

/-- The lines of items. -/
def prettyItems (level : Nat) : List Document → List Char
  | [] => []
  | [d] => newLine level ++ pretty level d
  | d :: rest => newLine level ++ pretty level d ++ ',' :: prettyItems level rest

/-- The lines of members. -/
def prettyMembers (level : Nat) : List (String × Document) → List Char
  | [] => []
  | [(key, d)] => newLine level ++ quoted key ++ ':' :: ' ' :: pretty level d
  | (key, d) :: rest =>
      newLine level ++ quoted key ++ ':' :: ' ' :: pretty level d ++
        ',' :: prettyMembers level rest

end

/-- The JSON text of a document over several lines. -/
def writePretty (d : Document) : String := String.ofList (pretty 0 d)

end Formula.Json
