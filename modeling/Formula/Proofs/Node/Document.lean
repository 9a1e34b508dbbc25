import Formula.Node.Document
import Formula.Proofs.Node.Preorder

set_option autoImplicit false

/-! # Trees in documents

The document of a tree is read as that tree if the tree is valid. Writing and reading follow the
same schema of a kind of node: the members of a node's mapping give the fields of the schema in
their order, so a node is read back once each of its fields is.
-/

namespace Formula.Node

/-! ## Fields -/

/-- The members of a mapping give the fields of a schema in their order, where optional ones may be
left out, and each is read as what a record has under its name. -/
inductive Fills : List Field → List (String × Document) → Record → Prop where
  | nil : Fills [] [] []
  | field {f : Field} {d : Document} {filled : Filled} {fields : List Field}
      {entries : List (String × Document)} {record : Record} (hread : read f.slot d = .ok filled)
      (h : Fills fields entries record) :
      Fills (f :: fields) ((f.name, d) :: entries) ((f.name, filled) :: record)
  | missing {f : Field} {fields : List Field} {entries : List (String × Document)}
      {record : Record} (hoptional : f.optional = true) (h : Fills fields entries record) :
      Fills (f :: fields) entries record

theorem Fills.mem_names {fields : List Field} {entries : List (String × Document)}
    {record : Record} (h : Fills fields entries record) :
    ∀ e ∈ entries, e.1 ∈ fields.map Field.name := by
  induction h with
  | nil => exact nofun
  | field _ _ ih =>
      intro e he
      rcases List.mem_cons.mp he with rfl | he
      · exact List.mem_cons_self
      · exact List.mem_cons_of_mem _ (ih e he)
  | missing _ _ ih => exact fun e he => List.mem_cons_of_mem _ (ih e he)

theorem find?_name {fields : List Field} {f : Field} (hf : f ∈ fields)
    (hnames : (fields.map Field.name).Nodup) :
    (fields.find? fun g => g.name == f.name) = some f := by
  induction fields with
  | nil => exact absurd hf List.not_mem_nil
  | cons first rest ih =>
      rw [List.map_cons, List.nodup_cons] at hnames
      rcases List.mem_cons.mp hf with rfl | hrest
      · exact List.find?_cons_of_pos (beq_self_eq_true f.name)
      · have hne : first.name ≠ f.name := fun heq =>
          hnames.1 (heq ▸ List.mem_map_of_mem (f := Field.name) hrest)
        rw [List.find?_cons_of_neg (by simpa using hne), ih hrest hnames.2]

/-- What has been read are fields of a list, and none of those that have to be given is missing. -/
structure Given (fields : List Field) (record : Record) : Prop where
  name_mem : ∀ e ∈ record, e.1 ∈ fields.map Field.name
  complete : ∀ f ∈ fields, f.optional = true ∨ (record.lookup f.name).isSome = true

theorem Given.nil : Given [] [] := ⟨nofun, nofun⟩

theorem Given.lookup_eq_none {fields : List Field} {record : Record} (h : Given fields record)
    {name : String} (hname : name ∉ fields.map Field.name) : record.lookup name = none := by
  rw [List.lookup_eq_none_iff]
  intro e he
  have hne : name ≠ e.1 := fun heq => hname (heq ▸ h.name_mem e he)
  simpa using hne

theorem Given.missing {fields : List Field} {record : Record} (h : Given fields record)
    {f : Field} (hoptional : f.optional = true) : Given (fields ++ [f]) record where
  name_mem e he := by
    rw [List.map_append]
    exact List.mem_append_left _ (h.name_mem e he)
  complete g hg := by
    rcases List.mem_append.mp hg with hg | hg
    · exact h.complete g hg
    · rw [List.mem_singleton.mp hg]
      exact .inl hoptional

theorem Given.field {fields : List Field} {record : Record} (h : Given fields record) (f : Field)
    (filled : Filled) : Given (fields ++ [f]) (record ++ [(f.name, filled)]) where
  name_mem e he := by
    rw [List.map_append]
    rcases List.mem_append.mp he with he | he
    · exact List.mem_append_left _ (h.name_mem e he)
    · rw [List.mem_singleton.mp he]
      exact List.mem_append_right _ List.mem_cons_self
  complete g hg := by
    rw [List.lookup_append, Option.isSome_or, Bool.or_eq_true]
    rcases List.mem_append.mp hg with hg | hg
    · exact (h.complete g hg).imp_right .inl
    · rw [List.mem_singleton.mp hg, List.lookup_cons_self]
      exact .inr (.inr rfl)

/-- Members are read one after the other, those of the fields in front having been read before. -/
theorem Fills.readFields_append {before fields : List Field} {entries : List (String × Document)}
    {done record : Record} (h : Fills fields entries record)
    (hnames : ((before ++ fields).map Field.name).Nodup) (hdone : Given before done) :
    readFields (before ++ fields) done entries = .ok (done ++ record) := by
  -- each field moves from the fields still to come to those in front, of which `hdone` speaks
  induction h generalizing before done with
  | nil =>
      have hcomplete : checkComplete (before ++ []) done = .ok () := by
        rw [checkComplete, if_pos]
        rw [List.append_nil, List.all_eq_true]
        exact fun f hf => Bool.or_eq_true_iff.mpr (hdone.complete f hf)
      rw [readFields, hcomplete, List.append_nil]
      rfl
  | @field f d filled fields entries record hread h ih =>
      have hfind := find?_name (List.mem_append_right before List.mem_cons_self) hnames
      have hnew : f.name ∉ before.map Field.name := by
        rw [List.map_append, List.nodup_append] at hnames
        exact fun hmem => hnames.2.2 _ hmem _ List.mem_cons_self rfl
      rw [readFields, hfind]
      dsimp only
      rw [hdone.lookup_eq_none hnew, if_neg nofun, hread, List.append_cons done]
      rw [List.append_cons] at hnames ⊢
      exact ih hnames (hdone.field f filled)
  | @missing f fields entries record hoptional h ih =>
      rw [List.append_cons] at hnames ⊢
      exact ih hnames (hdone.missing hoptional)

theorem Fills.readFields_eq {fields : List Field} {entries : List (String × Document)}
    {record : Record} (h : Fills fields entries record)
    (hnames : (fields.map Field.name).Nodup) : readFields fields [] entries = .ok record :=
  readFields_append h (List.nil_append fields ▸ hnames) .nil

/-! ## Nodes -/

attribute [local simp] read readAll readFields

theorem ofTypeName?_typeName (kind : NodeKind) :
    NodeKind.ofTypeName? kind.typeName = some kind := by
  cases kind <;> decide

theorem schema_names_nodup (kind : NodeKind) :
    ("type" :: (schema kind).map Field.name).Nodup := by
  cases kind <;> decide

theorem mappingKind_tagged (nested : Bool) (kind : NodeKind) {fields : List (String × Document)}
    (hfields : ∀ e ∈ fields, e.1 ≠ "type") :
    mappingKind nested (("type", .string kind.typeName) :: fields) = .ok kind := by
  have hnone : fields.filter (fun e => e.1 == "type") = [] := by
    rw [List.filter_eq_nil_iff]
    intro e he
    simpa using hfields e he
  rw [mappingKind, Document.valuesOf, List.filter_cons_of_pos (by rfl), hnone]
  simp only [List.map_cons, List.map_nil, readKind, readChoice, ofTypeName?_typeName, found]

/-- A node is read from its mapping if its fields are and it can be made of them. -/
theorem read_tagged {kind : NodeKind} {fields : List (String × Document)} {record : Record}
    {node : Node} (h : Fills (schema kind) fields record)
    (hnode : assemble kind record = .ok node) (nested : Bool) :
    read (.node nested) (tagged kind fields) = .ok (.node node) := by
  obtain ⟨htype, hnames⟩ := List.nodup_cons.mp (schema_names_nodup kind)
  have hkind := mappingKind_tagged nested kind fun e he heq =>
    htype (heq ▸ h.mem_names e he)
  -- the type is no field of the kind, so reading the fields passes over it
  have hnone : ((schema kind).find? fun f => f.name == "type") = none := by
    rw [List.find?_eq_none]
    intro f hf heq
    exact htype (eq_of_beq heq ▸ List.mem_map_of_mem (f := Field.name) hf)
  have hread : readFields (schema kind) [] (("type", .string kind.typeName) :: fields)
      = .ok record := by
    rw [readFields, hnone]
    exact h.readFields_eq hnames
  rw [tagged, read, hkind]
  show (readFields (schema kind) [] _ >>= _) = _
  rw [hread]
  show (assemble kind record >>= _) = _
  rw [hnode]
  rfl

theorem exists_tagged (node : Node) : ∃ fields, toDocument node = tagged node.kind fields := by
  match node with
  | .constant _ | .symbol _ | .operator .. | .function .. | .array _ | .assignment .. | .block _
  | .conditional .. | .functionAssignment .. | .index .. | .range _ _ none
  | .range _ _ (some _) | .update .. =>
      rw [toDocument]
      exact ⟨_, rfl⟩

/-- An optional node that is there is read as a nested one. -/
theorem read_optionalNode {node : Node} {filled : Filled}
    (h : read (.node true) (toDocument node) = .ok filled) :
    read .optionalNode (toDocument node) = .ok filled := by
  obtain ⟨fields, hfields⟩ := exists_tagged node
  rw [hfields] at h ⊢
  exact h

theorem read_literal (value : Literal) :
    read .literal (literalDocument value) = .ok (.literal value) := by
  cases value <;> (rw [literalDocument, read]; rfl)

theorem read_reference (name : String) :
    read .reference (.mapping [("name", .string name)]) = .ok (.text name) := by
  have hfills : Fills referenceSchema [("name", .string name)] [("name", .text name)] :=
    .field rfl .nil
  rw [read, hfills.readFields_eq (by decide)]
  rfl

theorem read_texts (texts : List String) :
    read .texts (.sequence (texts.map .string)) = .ok (.texts texts) := by
  have htexts : (texts.map Document.string).mapM Document.string? = some texts := by
    induction texts with
    | nil => rfl
    | cons text rest ih => rw [List.map_cons, List.mapM_cons, ih]; rfl
  rw [read, readTexts, htexts]
  rfl

theorem read_nodes {nodes : List Node}
    (h : ∀ node ∈ nodes, read (.node true) (toDocument node) = .ok (.node node)) :
    read .nodes (.sequence (toDocuments nodes)) = .ok (.nodes nodes) := by
  have hall : readAll (.node true) (toDocuments nodes) = .ok (nodes.map .node) := by
    induction nodes with
    | nil => rfl
    | cons node rest ih =>
        obtain ⟨hnode, hrest⟩ := List.forall_mem_cons.mp h
        rw [toDocuments, readAll, hnode, ih hrest]
        rfl
  have hnodes : nodesOf (nodes.map .node) = nodes := by
    rw [nodesOf, List.filterMap_map]
    exact List.filterMap_some
  simp [hall, Except.map, hnodes]

theorem read_entries {entries : List (Node × Bool)}
    (h : ∀ e ∈ entries, read (.node true) (toDocument e.1) = .ok (.node e.1)) :
    read .entries (.sequence (toEntryDocuments entries)) = .ok (.entries entries) := by
  -- an entry is a mapping of its own, with a node that reads back
  have hentry : ∀ e ∈ entries,
      read .entry (.mapping [("node", toDocument e.1), ("visible", .bool e.2)])
        = .ok (.entry e) := by
    intro e he
    have hfills : Fills entrySchema [("node", toDocument e.1), ("visible", .bool e.2)]
        [("node", .node e.1), ("visible", .flag e.2)] := .field (h e he) (.field rfl .nil)
    rw [read, hfills.readFields_eq (by decide)]
    rfl
  have hall : readAll .entry (toEntryDocuments entries) = .ok (entries.map .entry) := by
    clear h
    induction entries with
    | nil => rfl
    | cons e rest ih =>
        obtain ⟨he, hrest⟩ := List.forall_mem_cons.mp hentry
        rw [toEntryDocuments, readAll, he, ih hrest]
        rfl
  have hentries : entriesOf (entries.map .entry) = entries := by
    rw [entriesOf, List.filterMap_map]
    exact List.filterMap_some
  simp [hall, Except.map, hentries]

theorem Valid.of_mem_children {node child : Node} (h : Valid node)
    (hchild : child ∈ node.children) : Valid child := by
  cases h with
  | mk _ inside => exact inside child hchild

theorem makeOperator_eq {op fn : String} {args : List Node} {implicit : Bool}
    (h : isSound (.operator op fn args implicit) = true) :
    makeOperator op fn args = .ok (.operator op fn args false) := by
  rw [isSound, Bool.or_eq_true, beq_iff_eq, beq_iff_eq] at h
  rw [makeOperator, if_pos h]

theorem makeUpdate_eq {target expr : Node} (h : isSound (.update target expr) = true) :
    makeUpdate target expr = .ok (.update target expr) := by
  rw [makeUpdate, if_pos (eq_of_beq h)]

/-- The document of a valid node is read as the node. -/
theorem read_toDocument (node : Node) (hvalid : node.Valid) (nested : Bool) :
    read (.node nested) (toDocument node) = .ok (.node node) := by
  induction node using children_induction generalizing nested with
  | step node ih =>
      have hsound : node.isSound = true := by
        cases hvalid with
        | mk sound _ => exact sound
      have hread : ∀ child ∈ node.children,
          read (.node true) (toDocument child) = .ok (.node child) := fun child hchild =>
        ih child hchild (hvalid.of_mem_children hchild) true
      -- for every kind: its fields are read, then the node is made of them
      cases node with
      | constant value =>
          rw [toDocument]
          apply read_tagged
          · exact .field (read_literal value) .nil
          · rfl
      | symbol name =>
          rw [toDocument]
          apply read_tagged
          · exact .field rfl .nil
          · rfl
      | operator op fn args implicit =>
          rw [toDocument]
          apply read_tagged
          · exact .field rfl (.field rfl (.field (read_nodes hread) (.field rfl .nil)))
          · show ((makeOperator op fn args).mapError ShapeFault.content).map _ = _
            rw [makeOperator_eq hsound]
            rfl
      | function name args =>
          rw [toDocument]
          apply read_tagged
          · exact .field (read_reference name) (.field (read_nodes hread) .nil)
          · rfl
      | array items =>
          rw [toDocument]
          apply read_tagged
          · exact .field (read_nodes hread) .nil
          · rfl
      | assignment name expr =>
          rw [toDocument]
          apply read_tagged
          · exact .field rfl (.field (hread expr (by simp [children])) .nil)
          · rfl
      | block entries =>
          rw [toDocument]
          apply read_tagged
          · exact .field (read_entries fun e he => hread e.1 (List.mem_map_of_mem he)) .nil
          · rfl
      | conditional condition whenTrue whenFalse =>
          rw [toDocument]
          apply read_tagged
          · exact .field (hread condition (by simp [children]))
              (.field (hread whenTrue (by simp [children]))
                (.field (hread whenFalse (by simp [children])) .nil))
          · rfl
      | functionAssignment name params body =>
          rw [toDocument]
          apply read_tagged
          · exact .field rfl
              (.field (read_texts params) (.field (hread body (by simp [children])) .nil))
          · rfl
      | index object dimensions =>
          rw [toDocument]
          apply read_tagged
          · exact .field (hread object (by simp [children])) (.field (read_nodes fun d hd =>
              hread d (List.mem_cons_of_mem _ hd)) .nil)
          · rfl
      | range start stop step =>
          cases step with
          | none =>
              rw [toDocument]
              apply read_tagged
              · exact .field (hread start (by simp [children]))
                  (.field (hread stop (by simp [children])) (.missing rfl .nil))
              · rfl
          | some step =>
              have hstep := read_optionalNode (hread step (by simp [children]))
              rw [toDocument]
              apply read_tagged
              · exact .field (hread start (by simp [children]))
                  (.field (hread stop (by simp [children])) (.field hstep .nil))
              · rfl
      | update target expr =>
          rw [toDocument]
          apply read_tagged
          · exact .field (hread target (by simp [children]))
              (.field (hread expr (by simp [children])) .nil)
          · show (makeUpdate target expr).mapError ShapeFault.content = _
            rw [makeUpdate_eq hsound]
            rfl

theorem ofDocument_toDocument {node : Node} (h : node.Valid) :
    ofDocument (toDocument node) = .ok node := by
  rw [ofDocument, read_toDocument node h]
  rfl

end Formula.Node
