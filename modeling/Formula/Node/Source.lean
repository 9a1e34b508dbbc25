import Formula.Format.Yaml.Basic
import Formula.Node.Document

set_option autoImplicit false

/-! # Tree texts

A tree is read from a JSON text, from a YAML text, or from a text that is tried as both. What went
wrong is said by a cause. In a JSON text that holds a complete value, a fault of the tree counts
before anything behind the value; if there is no complete value the text is malformed, unless the
type of the root, which is checked as soon as it is met, was wrong before.
-/

namespace Formula.Node

/-- The formats that a tree may be written in. -/
inductive SourceFormat where
  | json
  | yaml
  /-- JSON, and YAML if that fails. -/
  | either
  deriving Repr, DecidableEq, Inhabited

/-- The format of a file by its extension. -/
def SourceFormat.ofExtension : Option String → SourceFormat
  | some "json" => .json
  | some "yaml" => .yaml
  | some "yml" => .yaml
  | _ => .either

/-- Why a text is no tree. -/
inductive SourceCause where
  /-- The text is not JSON. -/
  | syntaxFault
  /-- The data do not have the shape of a tree. -/
  | shape
  /-- The text is not YAML, or its data do not have the shape of a tree. -/
  | yaml
  /-- A node cannot be made of its parts. -/
  | node (fault : NodeError)
  deriving Repr, DecidableEq

/-- A text that is no tree in the format it was read in. -/
structure SourceError where
  format : SourceFormat
  cause : SourceCause
  deriving Repr, DecidableEq

/-- The text of an error, without its cause. -/
def SourceError.message (e : SourceError) : String :=
  match e.format with
  | .json => "Invalid JSON tree"
  | .yaml => "Invalid YAML tree"
  | .either => "Input is neither a JSON nor a YAML tree"

/-- A cause for a fault of the data, where any fault of shape is `ofShape`. -/
def causeOf (ofShape : SourceCause) : ReadFault → SourceCause
  | .shape => ofShape
  | .content fault => .node fault

/-! ## Malformed JSON -/

/-- Is the type of a root that starts here wrong? A string has to name a kind, and any other value
is wrong if it is complete or opens an array or an object. The answer for a right type is the text
behind it. -/
def rootType (cs : List Char) : Except SourceCause (List Char) :=
  match Json.skip cs with
  | '"' :: rest =>
      match Json.string? rest with
      | some (name, rest) => if (NodeKind.ofTypeName? name).isSome then .ok rest else .error .shape
      | none => .error .syntaxFault
  | '[' :: _ => .error .shape
  | '\x7b' :: _ => .error .shape
  | cs => if (Json.finiteValue? 0 cs).isSome then .error .shape else .error .syntaxFault

/-- The cause that the members of a root object fail for, `typed` saying whether the type was
met. -/
def memberCause (typed : Bool) : Nat → List Char → SourceCause
  | 0, _ => .syntaxFault
  | fuel + 1, cs =>
      match Json.skip cs with
      | '"' :: rest =>
          match Json.string? rest with
          | none => .syntaxFault
          | some (key, rest) =>
              if key = "type" ∧ typed = true then .shape
              else
                match Json.skip rest with
                | ':' :: rest =>
                    let value := if key = "type" then rootType rest else plainValue rest
                    match value with
                    | .error cause => cause
                    | .ok rest =>
                        match Json.skip rest with
                        | ',' :: rest => memberCause (typed || key == "type") fuel rest
                        | _ => .syntaxFault
                | _ => .syntaxFault
      | _ => .syntaxFault
where
  /-- The text behind a value of a member. -/
  plainValue (cs : List Char) : Except SourceCause (List Char) :=
    match Json.finiteValue? (Json.maxNesting - 1) cs with
    | some (_, rest) => .ok rest
    | none => .error .syntaxFault

/-- The cause that a text without a complete value fails for. -/
def malformedCause (cs : List Char) : SourceCause :=
  match Json.skip cs with
  | '[' :: rest =>
      match rootType rest with
      | .error cause => cause
      | .ok _ => .syntaxFault
  | '\x7b' :: rest => memberCause false (rest.length + 1) rest
  | _ => .syntaxFault

/-! ## Reading -/

/-- The tree that a JSON text holds. -/
def ofJson (text : String) : Except SourceCause Node :=
  let cs := text.toList
  match Json.front? cs with
  | none => .error (malformedCause cs)
  | some (d, rest) =>
      match ofDocument d with
      | .error fault => .error (causeOf .shape fault)
      | .ok node => if Json.skip rest = [] then .ok node else .error .syntaxFault

/-- The tree that a YAML text holds. Its integers have 64 bits. -/
def ofYaml (text : String) : Except SourceCause Node :=
  match (Yaml.parse .null text).filter (Document.all Yaml.isNarrow) with
  | none => .error .yaml
  | some d => (ofDocument d).mapError (causeOf .yaml)

/-- The tree that a text holds. -/
def ofText (format : SourceFormat) (text : String) : Except SourceError Node :=
  let read :=
    match format with
    | .json => ofJson text
    | .yaml => ofYaml text
    | .either => ofJson text <|> ofYaml text
  read.mapError (⟨format, ·⟩)

end Formula.Node
