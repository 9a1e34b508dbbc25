import Formula.Document
import Formula.Node.Basic

set_option autoImplicit false

/-! # Trees as documents

A node is written as a mapping: its type first, then the fields of its type. Reading is freer.
The fields may come in any order, with the type anywhere among them, and fields with other names
are ignored. A structure may also be a sequence of its fields in their order, the type of a node
in front. A field given twice, a missing field without a default and a field of the wrong kind
are faults of shape.

`schema` lists the fields of each type of node. `read` reads one field by its `Slot`; a node is a
field like any other. The two rules on the children of a node are checked when all its fields
have been read.
-/

namespace Formula.Node

/-! ## Writing -/

/-- The document of a literal: its type, then its value unless that is null. -/
def literalDocument (value : Literal) : Document :=
  let typed (v : Document) := [("valueType", .string value.type.token), ("value", v)]
  match value with
  | .number x => .mapping (typed (.real x))
  | .string s => .mapping (typed (.string s))
  | .boolean b => .mapping (typed (.bool b))
  | .null => .mapping [("valueType", .string value.type.token)]

/-- A node's mapping: its type and its fields. -/
def tagged (kind : NodeKind) (fields : List (String × Document)) : Document :=
  .mapping (("type", .string kind.typeName) :: fields)

mutual

/-- The document of a tree. -/
def toDocument : Node → Document
  | .constant value => tagged .constant [("value", literalDocument value)]
  | .symbol name => tagged .symbol [("name", .string name)]
  | .operator op fn args implicit =>
      tagged .operator
        [("op", .string op), ("fn", .string fn), ("args", .sequence (toDocuments args)),
          ("implicit", .bool implicit)]
  | .function name args =>
      tagged .function
        [("fn", .mapping [("name", .string name)]), ("args", .sequence (toDocuments args))]
  | .array items => tagged .array [("items", .sequence (toDocuments items))]
  | .assignment name expr =>
      tagged .assignment [("name", .string name), ("expr", toDocument expr)]
  | .block entries => tagged .block [("blocks", .sequence (toEntryDocuments entries))]
  | .conditional condition whenTrue whenFalse =>
      tagged .conditional
        [("condition", toDocument condition), ("trueExpr", toDocument whenTrue),
          ("falseExpr", toDocument whenFalse)]
  | .functionAssignment name params body =>
      tagged .functionAssignment
        [("name", .string name), ("params", .sequence (params.map .string)),
          ("expr", toDocument body)]
  | .index object dimensions =>
      tagged .index
        [("object", toDocument object), ("dimensions", .sequence (toDocuments dimensions))]
  | .range start stop none =>
      tagged .range [("start", toDocument start), ("end", toDocument stop)]
  | .range start stop (some step) =>
      tagged .range
        [("start", toDocument start), ("end", toDocument stop), ("step", toDocument step)]
  | .update target expr =>
      tagged .update [("index", toDocument target), ("expr", toDocument expr)]

/-- The documents of several trees. -/
def toDocuments : List Node → List Document
  | [] => []
  | node :: rest => toDocument node :: toDocuments rest

/-- The documents of the statements of a block. -/
def toEntryDocuments : List (Node × Bool) → List Document
  | [] => []
  | (node, visible) :: rest =>
      .mapping [("node", toDocument node), ("visible", .bool visible)] :: toEntryDocuments rest

end

/-! ## Reading -/

/-- What a field holds. -/
inductive Slot where
  | text
  | texts
  | flag
  | literal
  /-- A reference to a function by a symbol. -/
  | reference
  /-- A node, whose type may be given by its number if the node is `nested` in another one. -/
  | node (nested : Bool)
  | optionalNode
  | nodes
  | entry
  | entries
  deriving DecidableEq

/-- A field: its name, what it holds, and whether it may be missing. -/
structure Field where
  name : String
  slot : Slot
  optional : Bool

/-- A field that has been read. -/
inductive Filled where
  | text (s : String)
  | texts (ss : List String)
  | flag (b : Bool)
  | literal (value : Literal)
  | node (node : Node)
  | nodes (nodes : List Node)
  | entry (entry : Node × Bool)
  | entries (entries : List (Node × Bool))
  /-- A null in place of an optional node. -/
  | absent

/-- A field that has to be given. -/
def required (name : String) (slot : Slot) : Field := ⟨name, slot, false⟩

/-- The fields of a type of node in their order. -/
def schema : NodeKind → List Field
  | .constant => [required "value" .literal]
  | .symbol => [required "name" .text]
  | .operator =>
      [required "op" .text, required "fn" .text, required "args" .nodes, ⟨"implicit", .flag, true⟩]
  | .function => [required "fn" .reference, required "args" .nodes]
  | .array => [required "items" .nodes]
  | .assignment => [required "name" .text, required "expr" (.node true)]
  | .block => [required "blocks" .entries]
  | .conditional =>
      [required "condition" (.node true), required "trueExpr" (.node true),
        required "falseExpr" (.node true)]
  | .functionAssignment =>
      [required "name" .text, required "params" .texts, required "expr" (.node true)]
  | .index => [required "object" (.node true), required "dimensions" .nodes]
  | .range =>
      [required "start" (.node true), required "end" (.node true), ⟨"step", .optionalNode, true⟩]
  | .update => [required "index" (.node true), required "expr" (.node true)]

/-- The fields of a statement of a block. -/
def entrySchema : List Field := [required "node" (.node true), required "visible" .flag]

/-- The fields of a reference to a function. -/
def referenceSchema : List Field := [required "name" .text]

/-- A fault of reading: of shape, or of a node that cannot be made. -/
abbrev ReadFault := ShapeFault NodeError

/-- What was looked up, which has to be there. -/
def found {α : Type} : Option α → Except ReadFault α
  | some x => .ok x
  | none => .error .shape

/-- One of several types, by its name or by its number among them. -/
def readChoice {α : Type} (all : List α) (ofName? : String → Option α) :
    Document → Except ReadFault α
  | .string name => found (ofName? name)
  | .integer (.ofNat n) => found all[n]?
  | _ => .error .shape

/-- The type of a node, by its name or, in a nested node, by its number. -/
def readKind (nested : Bool) : Document → Except ReadFault NodeKind :=
  readChoice (if nested then NodeKind.all else []) NodeKind.ofTypeName?

/-- The type of a node given as a mapping, where it stands exactly once. -/
def mappingKind (nested : Bool) (entries : List (String × Document)) :
    Except ReadFault NodeKind :=
  match Document.valuesOf "type" entries with
  | [type] => readKind nested type
  | _ => .error .shape

/-- The type of a literal that is a mapping: its name alone, or as the only key of a mapping to
nothing. -/
def readLiteralType : Document → Except ReadFault LiteralType
  | .string name => found (LiteralType.ofToken? name)
  | .mapping [(name, .null)] => found (LiteralType.ofToken? name)
  | .mapping [(name, .mapping [])] => found (LiteralType.ofToken? name)
  | _ => .error .shape

/-- The literal of a type with a value; only the null literal needs none. -/
def readLiteralValue : LiteralType → Option Document → Except ReadFault Literal
  | .number, some (.real x) => .ok (.number x)
  | .number, some (.integer n) => .ok (.number (Binary64.ofInt n))
  | .string, some (.string s) => .ok (.string s)
  | .boolean, some (.bool b) => .ok (.boolean b)
  | .null, some .null => .ok .null
  | .null, none => .ok .null
  | _, _ => .error .shape

/-- A literal: type and value, each given once. In a sequence the type may be given by its
number. -/
def readLiteral : Document → Except ReadFault Literal
  | .mapping entries =>
      match Document.valuesOf "valueType" entries, Document.valuesOf "value" entries with
      | [type], [] => do readLiteralValue (← readLiteralType type) none
      | [type], [value] => do readLiteralValue (← readLiteralType type) (some value)
      | _, _ => .error .shape
  | .sequence [type, value] => do
      readLiteralValue (← readChoice LiteralType.all LiteralType.ofToken? type) (some value)
  | _ => .error .shape

/-- The strings of a sequence. -/
def readTexts (items : List Document) : Except ReadFault (List String) :=
  match items.mapM Document.string? with
  | some texts => .ok texts
  | none => .error .shape

/-- Fields that have been read, by name. -/
abbrev Record := List (String × Filled)

/-- Fails unless every field that has to be given is there. -/
def checkComplete (fields : List Field) (record : Record) : Except ReadFault Unit :=
  if fields.all fun f => f.optional || (record.lookup f.name).isSome then .ok () else .error .shape

/-- The node of a type with the given fields. -/
def assemble (kind : NodeKind) (record : Record) : Except ReadFault Node :=
  let lift (node : Except NodeError Node) : Except ReadFault Node := node.mapError .content
  let field (name : String) : Option Filled := record.lookup name
  match kind with
  | .constant =>
      match field "value" with
      | some (.literal value) => .ok (.constant value)
      | _ => .error .shape
  | .symbol =>
      match field "name" with
      | some (.text name) => .ok (.symbol name)
      | _ => .error .shape
  | .operator =>
      match field "op", field "fn", field "args", field "implicit" with
      | some (.text op), some (.text fn), some (.nodes args), none => lift (makeOperator op fn args)
      | some (.text op), some (.text fn), some (.nodes args), some (.flag implicit) =>
          (lift (makeOperator op fn args)).map fun _ => .operator op fn args implicit
      | _, _, _, _ => .error .shape
  | .function =>
      match field "fn", field "args" with
      | some (.text name), some (.nodes args) => .ok (.function name args)
      | _, _ => .error .shape
  | .array =>
      match field "items" with
      | some (.nodes items) => .ok (.array items)
      | _ => .error .shape
  | .assignment =>
      match field "name", field "expr" with
      | some (.text name), some (.node expr) => .ok (.assignment name expr)
      | _, _ => .error .shape
  | .block =>
      match field "blocks" with
      | some (.entries entries) => .ok (.block entries)
      | _ => .error .shape
  | .conditional =>
      match field "condition", field "trueExpr", field "falseExpr" with
      | some (.node condition), some (.node whenTrue), some (.node whenFalse) =>
          .ok (.conditional condition whenTrue whenFalse)
      | _, _, _ => .error .shape
  | .functionAssignment =>
      match field "name", field "params", field "expr" with
      | some (.text name), some (.texts params), some (.node body) =>
          .ok (.functionAssignment name params body)
      | _, _, _ => .error .shape
  | .index =>
      match field "object", field "dimensions" with
      | some (.node object), some (.nodes dimensions) => .ok (.index object dimensions)
      | _, _ => .error .shape
  | .range =>
      match field "start", field "end", field "step" with
      | some (.node start), some (.node stop), some (.node step) =>
          .ok (.range start stop (some step))
      | some (.node start), some (.node stop), _ => .ok (.range start stop none)
      | _, _, _ => .error .shape
  | .update =>
      match field "index", field "expr" with
      | some (.node target), some (.node expr) => lift (makeUpdate target expr)
      | _, _ => .error .shape

/-- The statement with the given fields. -/
def assembleEntry (record : Record) : Except ReadFault Filled :=
  match record.lookup "node", record.lookup "visible" with
  | some (.node node), some (.flag visible) => .ok (.entry (node, visible))
  | _, _ => .error .shape

/-- The reference with the given fields, which is the name of the function. -/
def assembleReference (record : Record) : Except ReadFault Filled :=
  match record.lookup "name" with
  | some (.text name) => .ok (.text name)
  | _ => .error .shape

/-- The nodes among fields. -/
def nodesOf (filled : List Filled) : List Node :=
  filled.filterMap fun
    | .node node => some node
    | _ => none

/-- The statements among fields. -/
def entriesOf (filled : List Filled) : List (Node × Bool) :=
  filled.filterMap fun
    | .entry entry => some entry
    | _ => none

mutual

/-- Reads what a slot holds. -/
def read : Slot → Document → Except ReadFault Filled
  | .text, .string s => .ok (.text s)
  | .texts, .sequence items => (readTexts items).map .texts
  | .flag, .bool b => .ok (.flag b)
  | .literal, d => (readLiteral d).map .literal
  | .reference, .mapping entries => do
      assembleReference (← readFields referenceSchema [] entries)
  | .reference, .sequence items => do
      assembleReference (← readItems referenceSchema items)
  | .node nested, .mapping entries => do
      let kind ← mappingKind nested entries
      let node ← assemble kind (← readFields (schema kind) [] entries)
      .ok (.node node)
  | .node nested, .sequence (type :: items) => do
      let kind ← readKind nested type
      let node ← assemble kind (← readItems (schema kind) items)
      .ok (.node node)
  | .optionalNode, .null => .ok .absent
  | .optionalNode, .mapping entries => do
      let kind ← mappingKind true entries
      let node ← assemble kind (← readFields (schema kind) [] entries)
      .ok (.node node)
  | .optionalNode, .sequence (type :: items) => do
      let kind ← readKind true type
      let node ← assemble kind (← readItems (schema kind) items)
      .ok (.node node)
  | .nodes, .sequence items => (readAll (.node true) items).map fun r => .nodes (nodesOf r)
  | .entry, .mapping entries => do assembleEntry (← readFields entrySchema [] entries)
  | .entry, .sequence items => do assembleEntry (← readItems entrySchema items)
  | .entries, .sequence items => (readAll .entry items).map fun r => .entries (entriesOf r)
  | _, _ => .error .shape

/-- Reads the fields of a mapping in the order in which they stand there. -/
def readFields (fields : List Field) (record : Record) :
    List (String × Document) → Except ReadFault Record
  | [] => (checkComplete fields record).map fun _ => record
  | (name, d) :: rest =>
      match fields.find? fun f => f.name == name with
      | none => readFields fields record rest
      | some field =>
          if (record.lookup name).isSome then .error .shape
          else do
            let filled ← read field.slot d
            readFields fields (record ++ [(name, filled)]) rest

/-- Reads the fields of a sequence, which stand in the order of the schema. -/
def readItems : List Field → List Document → Except ReadFault Record
  | [], [] => .ok []
  | [], _ :: _ => .error .shape
  | fields, [] => (checkComplete fields []).map fun _ => []
  | field :: fields, d :: rest => do
      let filled ← read field.slot d
      (readItems fields rest).map ((field.name, filled) :: ·)

/-- Reads items that all hold the same. -/
def readAll (slot : Slot) : List Document → Except ReadFault (List Filled)
  | [] => .ok []
  | d :: rest => do
      let filled ← read slot d
      (readAll slot rest).map (filled :: ·)

end

/-- The tree that a document holds. -/
def ofDocument (d : Document) : Except ReadFault Node := do
  match ← read (.node false) d with
    | .node node => .ok node
    | _ => .error .shape

end Formula.Node
