import Formula.Format.Yaml.Line

set_option autoImplicit false

/-! # Flow collections in YAML texts

Collections in brackets: `[a, b]` and `{a: b}`, over any number of lines. Every JSON text
without surrogates is one.
-/

namespace Formula.Yaml

/-- The deepest nesting of flow collections. -/
def maxNesting : Nat := 128

/-- A text behind its leading blanks and line ends. -/
def skip (cs : List Char) : List Char :=
  cs.dropWhile fun c => c == ' ' || c == '\t' || c == '\n' || c == '\r'

/-- The largest number of characters from the start of a key to its colon. -/
def maxKeyWidth : Nat := 1024

/-- Does a colon in front of this text end a key? -/
def endsKey : List Char → Bool
  | [] => true
  | c :: _ => isBlank c || c == '\n'

/-- May a colon not stand in front of this text within a plain scalar? -/
def clashes : List Char → Bool
  | [] => false
  | c :: _ => isFlowMark c || c == '?'

/-- A plain scalar inside a flow collection, blanks at its end included. -/
def flowPlainBody : List Char → List Char × List Char
  | [] => ([], [])
  | c :: rest =>
      if isFlowMark c || c == '\n' || (c == ':' && (endsKey rest || clashes rest)) then
        ([], c :: rest)
      else
        let (body, rest) := flowPlainBody rest
        (c :: body, rest)

/-- A plain scalar inside a flow collection and the text behind it. -/
def flowPlain? (cs : List Char) : Option (List Char × List Char) :=
  let (body, rest) := flowPlainBody cs
  match rest with
  | ':' :: behind => if clashes behind then none else some (trimEnd body, rest)
  | _ => some (trimEnd body, rest)

/-- May a plain scalar inside a flow collection start with this text? -/
def startsFlowPlain (cs : List Char) : Bool :=
  startsPlain cs && cs.head? != some '?' && cs.head? != some ':'

/-- A scalar inside a flow collection. -/
def flowScalar? (cs : List Char) : Option (Document × List Char) :=
  match cs with
  | '"' :: _ => (quoted? cs).map fun r => (.string r.1, r.2)
  | '\'' :: _ => (quoted? cs).map fun r => (.string r.1, r.2)
  | _ =>
      if startsFlowPlain cs then (flowPlain? cs).map fun r => (plain .null r.1, r.2) else none

/-- The key of an entry. -/
def flowKey? (cs : List Char) : Option (String × List Char) :=
  match cs with
  | '"' :: _ => quoted? cs
  | '\'' :: _ => quoted? cs
  | _ =>
      if startsFlowPlain cs then (flowPlain? cs).map fun r => (String.ofList r.1, r.2) else none

/-- Does a colon stand behind a key, but too far behind its start or on another line? `cs` is the
text from the key on and `rest` the text behind the key. -/
def missesColon (cs rest : List Char) : Bool :=
  let gap := rest.takeWhile fun c => isBlank c || c == '\n'
  (rest.drop gap.length).head? == some ':' &&
    (gap.contains '\n' || maxKeyWidth + rest.length < cs.length + gap.length)

mutual

/-- A value, which may open `levels` further levels. -/
def flowValue? (levels : Nat) : Nat → List Char → Option (Document × List Char)
  | 0, _ => none
  | fuel + 1, cs =>
      match skip cs, levels with
      | '[' :: rest, levels + 1 =>
          (flowItems? levels fuel rest).map fun r => (.sequence r.1, r.2)
      | '\x7b' :: rest, levels + 1 =>
          (flowEntries? levels fuel rest).map fun r => (.mapping r.1, r.2)
      | cs, _ => flowScalar? cs

/-- The items of a sequence from its next item on. -/
def flowItems? (levels : Nat) : Nat → List Char → Option (List Document × List Char)
  | 0, _ => none
  | fuel + 1, cs =>
      match skip cs with
      | ']' :: rest => some ([], rest)
      | cs => do
          let (item, rest) ← flowValue? levels fuel cs
          match skip rest with
            | ',' :: rest => (flowItems? levels fuel rest).map fun r => (item :: r.1, r.2)
            | ']' :: rest => some ([item], rest)
            | _ => none

/-- The entries of a mapping from its next entry on. -/
def flowEntries? (levels : Nat) :
    Nat → List Char → Option (List (String × Document) × List Char)
  | 0, _ => none
  | fuel + 1, cs =>
      match skip cs with
      | '\x7d' :: rest => some ([], rest)
      | cs => do
          let (key, rest) ← flowKey? cs
          if missesColon cs rest then none
          let (value, rest) ← flowEntryValue? levels fuel (skip rest)
          match skip rest with
            | ',' :: rest => (flowEntries? levels fuel rest).map fun r => ((key, value) :: r.1, r.2)
            | '\x7d' :: rest => some ([(key, value)], rest)
            | _ => none

/-- What stands behind a key: a colon and a value, where either may be missing. -/
def flowEntryValue? (levels : Nat) : Nat → List Char → Option (Document × List Char)
  | 0, _ => none
  | fuel + 1, ':' :: rest =>
      match skip rest with
      | ',' :: _ => some (.null, rest)
      | '\x7d' :: _ => some (.null, rest)
      | _ => flowValue? levels fuel rest
  | _ + 1, rest => some (.null, rest)

end

end Formula.Yaml
