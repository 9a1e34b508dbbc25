import Formula.Format.Yaml.Basic

set_option autoImplicit false

/-! # Writing YAML texts

A mapping is written as a block, one entry per line and two blanks deeper for each level. Anything
else stands on the line of its key: a sequence in brackets, a string plain if it consists of
lower-case letters and is read back as a string, and in quotes otherwise.
-/

namespace Formula.Yaml

/-- Is the string read back as itself if it is written plain? -/
def isPlain (s : String) : Bool :=
  s != "" && s.toList.all Char.isLower &&
    match plain .null s.toList with
    | .string t => t == s
    | _ => false

/-- A value that stands on the line of its key. -/
def lineText : Document → String
  | .string s => if isPlain s then s else String.ofList (Json.quoted s)
  | d => Json.write d

/-- The indentation of a level. -/
def indentation (level : Nat) : String := String.ofList (List.replicate (2 * level) ' ')

mutual

/-- The text behind a key: a block of its own, or a value on the line of the key. -/
def entryText (level : Nat) : Document → String
  | .mapping (e :: es) => "\n" ++ blockText (level + 1) (e :: es)
  | d => " " ++ lineText d ++ "\n"

/-- The lines of the entries of a mapping. -/
def blockText (level : Nat) : List (String × Document) → String
  | [] => ""
  | (key, d) :: rest => indentation level ++ key ++ ":" ++ entryText level d ++ blockText level rest

end

/-- The YAML text of a document. -/
def write : Document → String
  | .mapping (e :: es) => blockText 0 (e :: es)
  | d => lineText d ++ "\n"

end Formula.Yaml
