import Formula.Config.Basic
import Formula.Format.Toml
import Formula.Format.Yaml.Write
import Formula.Path

set_option autoImplicit false

/-! # Configuration files

The extension of a file says how its configuration is written. A file of another extension is
written as YAML, and read as YAML or else as TOML. A YAML text in which nothing is written, or in
which nothing is written behind a section, leaves the defaults.
-/

namespace Formula.Config

/-- The formats of configuration files. -/
inductive FileFormat where
  | yaml
  | json
  | toml
  /-- Written as YAML, read as YAML or TOML. -/
  | other
  deriving Repr, DecidableEq, Inhabited

/-- The format of a file by its extension. -/
def FileFormat.ofPath (path : String) : FileFormat :=
  match Path.extension? path with
  | some "yaml" => .yaml
  | some "yml" => .yaml
  | some "json" => .json
  | some "toml" => .toml
  | _ => .other

/-- What may fail with configuration files. -/
inductive FileFault where
  /-- The file cannot be read. -/
  | unreadable (path : String)
  /-- The text of the file holds no configuration. -/
  | malformed (format : FileFormat) (path : String)
  /-- The file cannot be written. -/
  | unwritable (path : String)
  /-- TOML has no integers of more than 63 bits. -/
  | tooLarge
  deriving Repr, DecidableEq

/-- The text of a fault. -/
def FileFault.message : FileFault → String
  | .unreadable path => s!"Failed to read config file: {path}"
  | .malformed .yaml path => s!"Failed to parse YAML config: {path}"
  | .malformed .json path => s!"Failed to parse JSON config: {path}"
  | .malformed .toml path => s!"Failed to parse TOML config: {path}"
  | .malformed .other path => s!"Could not parse config file {path} (tried YAML, JSON, TOML)"
  | .unwritable path => s!"Failed to write config file: {path}"
  | .tooLarge => "Failed to serialize config to TOML"

/-- The configuration that a YAML text holds. -/
def ofYaml? (text : String) : Option Config := Yaml.parse (.mapping []) text >>= ofDocument false

/-- The configuration that a JSON text holds. Only in JSON names may also be keys. Settings of
other names may hold anything. -/
def ofJson? (text : String) : Option Config := Json.parseFreely text >>= ofDocument true

/-- The configuration that a TOML text holds. -/
def ofToml? (text : String) : Option Config := Toml.parse text >>= ofDocument false

/-- Reads the text of a configuration file. -/
def ofText (path text : String) : Except FileFault Config :=
  let format := FileFormat.ofPath path
  let read :=
    match format with
    | .yaml => ofYaml? text
    | .json => ofJson? text
    | .toml => ofToml? text
    | .other => ofYaml? text <|> ofToml? text
  match read with
  | some c => .ok c
  | none => .error (.malformed format path)

/-- The text of a configuration file. -/
def toText (path : String) (c : Config) : Except FileFault String :=
  match FileFormat.ofPath path with
  | .json => .ok (Json.writePretty c.toDocument)
  | .toml =>
      match Toml.write? c.toDocument with
      | some text => .ok text
      | none => .error .tooLarge
  | _ => .ok (Yaml.write c.toDocument)

end Formula.Config
