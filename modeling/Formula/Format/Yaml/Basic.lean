import Formula.Format.Yaml.Flow

set_option autoImplicit false

/-! # YAML texts

`parse` reads a document from a YAML text of this form: block mappings and sequences nested by
indentation, flow collections, plain scalars, quoted strings, comments, and one marker `---` in
front. A block is read off a list of lines, which keep their indentation; a block
behind a dash starts in the middle of a line.
-/

namespace Formula.Yaml

/-- Is a line an item of a block sequence? -/
def isItem : List Char → Bool
  | ['-'] => true
  | '-' :: ' ' :: _ => true
  | _ => false

/-- Splits a text at the first colon that ends a key. -/
def plainKey? : List Char → Option (List Char × List Char)
  | [] => none
  | [':'] => some ([], [])
  | ':' :: c :: rest =>
      if isBlank c then some ([], rest) else (plainKey? (c :: rest)).map fun r => (':' :: r.1, r.2)
  | c :: rest => (plainKey? rest).map fun r => (c :: r.1, r.2)

/-- The key of an entry and what follows it on its line. -/
def anyKey? (cs : List Char) : Option (String × List Char) :=
  match quoted? cs with
  | some (key, rest) =>
      match skip rest with
      | [':'] => some (key, [])
      | ':' :: c :: rest => if isBlank c then some (key, rest) else none
      | _ => none
  | none =>
      if startsPlain cs then
        (plainKey? cs).map fun r => (String.ofList (trimEnd r.1), r.2)
      else none

/-- The key of an entry, which must not be too long, and what follows it on its line. -/
def key? (cs : List Char) : Option (String × List Char) :=
  (anyKey? cs).filter fun r =>
    cs.length ≤ r.2.length + maxKeyWidth + if r.2 = [] then 1 else 2

/-- The lines behind a flow collection. Of the lines joined, which have `total` characters, `rest`
is left. -/
def linesBehind : Nat → List Line → List Char → Option (List Line)
  | _, [], rest => if trimEnd rest = [] then some [] else none
  | total, l :: lines, rest =>
      if total ≤ rest.length then
        if trimEnd (rest.take (rest.length - total)) = [] then some (l :: lines) else none
      else linesBehind (total - (l.text.length + 1)) lines rest

/-- A flow collection that starts with the given text and may go on in the following lines. -/
def flow? (cs : List Char) (lines : List Line) : Option (Document × List Line) := do
  let joined := lines.foldr (fun l rest => '\n' :: (l.text ++ rest)) []
  let (d, rest) ← flowValue? maxNesting (2 * (cs.length + joined.length) + 2) (cs ++ joined)
  let behind ← linesBehind joined.length lines rest
  some (d, behind)

/-- A value that starts within a line of a block whose parent is indented less than `inside`. A
plain scalar goes on in the following lines that are inside. -/
def inline? (empty : Document) (inside : Nat) (cs : List Char) (lines : List Line) :
    Option (Document × List Line) :=
  match cs with
  | '[' :: _ => flow? cs lines
  | '\x7b' :: _ => flow? cs lines
  | _ =>
      if (key? cs).isSome then none
      else
        match quoted? cs with
        | some (s, rest) => if skip rest = [] then some (.string s, lines) else none
        | none =>
            let more := lines.takeWhile fun l => inside ≤ l.indent
            if !startsPlain cs ∨ more.any fun l => (key? l.text).isSome then none
            else
              let folded := more.foldl (fun cs l => cs ++ ' ' :: l.text) cs
              some (plain empty folded, lines.drop more.length)

mutual

/-- The block at the front of a list of lines, inside a block indented less than `inside`. -/
def block? (empty : Document) : Nat → Nat → List Line → Option (Document × List Line)
  | 0, _, _ => none
  | _ + 1, _, [] => some (empty, [])
  | fuel + 1, inside, first :: rest =>
      if isItem first.text then
        (items? empty fuel first.indent (first :: rest)).map fun r => (.sequence r.1, r.2)
      else if (key? first.text).isSome then
        (entries? empty fuel first.indent (first :: rest)).map fun r => (.mapping r.1, r.2)
      else inline? empty inside first.text rest

/-- The items of a block sequence, all indented by `indent`. -/
def items? (empty : Document) : Nat → Nat → List Line → Option (List Document × List Line)
  | 0, _, _ => none
  | _ + 1, _, [] => some ([], [])
  | fuel + 1, indent, first :: rest =>
      if first.indent = indent ∧ isItem first.text then do
        let behind := first.text.tail
        let body := behind.dropWhile (· == ' ')
        let (item, rest) ←
          if body = [] then nested? empty fuel (indent + 1) rest
          else
            let start := indent + 1 + (behind.length - body.length)
            block? empty fuel (indent + 1) (⟨start, body⟩ :: rest)
        let (items, rest) ← items? empty fuel indent rest
        some (item :: items, rest)
      else some ([], first :: rest)

/-- The entries of a block mapping, all indented by `indent`. -/
def entries? (empty : Document) :
    Nat → Nat → List Line → Option (List (String × Document) × List Line)
  | 0, _, _ => none
  | _ + 1, _, [] => some ([], [])
  | fuel + 1, indent, first :: rest =>
      if first.indent ≠ indent then some ([], first :: rest)
      else
        match key? first.text with
        | none => some ([], first :: rest)
        | some (key, behind) => do
            let body := behind.dropWhile isBlank
            let (value, rest) ←
              if body ≠ [] then inline? empty (indent + 1) body rest
              else if (rest.head?.map fun l => l.indent == indent && isItem l.text) = some true then
                (items? empty fuel indent rest).map fun r => (.sequence r.1, r.2)
              else nested? empty fuel (indent + 1) rest
            let (entries, rest) ← entries? empty fuel indent rest
            some ((key, value) :: entries, rest)

/-- The block of the following lines, if they are indented by `inside` at least, and `empty` if
there is none. -/
def nested? (empty : Document) : Nat → Nat → List Line → Option (Document × List Line)
  | 0, _, _ => none
  | _ + 1, _, [] => some (empty, [])
  | fuel + 1, inside, first :: rest =>
      if inside ≤ first.indent then block? empty fuel inside (first :: rest)
      else some (empty, first :: rest)

end

/-- The document that a text holds; `empty` is what stands where nothing is written. -/
def parse (empty : Document) (text : String) : Option Document :=
  let cs := text.toList
  if cs.all isAllowed then do
    let lines := linesOf cs
    let lines := if (lines.head?.map Line.text) = some ['-', '-', '-'] then lines.tail else lines
    let (d, rest) ← block? empty (4 * (cs.length + 1)) 0 lines
    if rest.isEmpty then some d else none
  else none

end Formula.Yaml
