import Mathlib
import Formula.Node.Source
import Formula.Proofs.Compile
import Formula.Proofs.Node.Rebuild

set_option autoImplicit false

/-! # Trees are valid however they come about

Whatever tree is read from a text is valid. A tree that has come about by reading, by making nodes
and by any number of changes is valid, too, so each update in it has an index node to select with.
-/

namespace Formula.Node

/-! ## Reading -/

/-- If an outcome is no error it satisfies `good`. -/
def Gives {ε α : Type} (good : α → Prop) (outcome : Except ε α) : Prop :=
  ∀ a, outcome = .ok a → good a

section gives

variable {ε α β : Type} {good : α → Prop} {good' : β → Prop}

theorem gives_ok {a : α} (h : good a) : Gives good (.ok a : Except ε α) := by
  intro b hb
  cases hb
  exact h

theorem gives_error (fault : ε) : Gives good (.error fault) := nofun

theorem gives_any (outcome : Except ε α) : Gives (fun _ => True) outcome := fun _ _ => trivial

theorem gives_bind {x : Except ε α} {k : α → Except ε β} (hx : Gives good x)
    (hk : ∀ a, good a → Gives good' (k a)) : Gives good' (x >>= k) := by
  cases x with
  | error fault => exact gives_error fault
  | ok a => exact hk a (hx a rfl)

theorem gives_map {x : Except ε α} {f : α → β} (hx : Gives good x)
    (hf : ∀ a, good a → good' (f a)) : Gives good' (x.map f) := by
  cases x with
  | error fault => exact gives_error fault
  | ok a => exact gives_ok (hf a (hx a rfl))

theorem gives_mapError {ε' : Type} {f : ε → ε'} {x : Except ε α} (hx : Gives good x) :
    Gives good (x.mapError f) := by
  cases x with
  | error fault => exact gives_error (f fault)
  | ok a => exact gives_ok (hx a rfl)

end gives

/-- All nodes in a field are valid. -/
def Filled.Valid : Filled → Prop
  | .node n => n.Valid
  | .nodes ns => ∀ n ∈ ns, n.Valid
  | .entry e => e.1.Valid
  | .entries es => ∀ e ∈ es, e.1.Valid
  | _ => True

/-- All nodes in the fields that have been read are valid. -/
def Record.Valid (record : Record) : Prop := ∀ e ∈ record, e.2.Valid

theorem Record.Valid.nil : Record.Valid [] := nofun

theorem Record.Valid.lookup {record : Record} (h : record.Valid) {name : String} {filled : Filled}
    (hlookup : List.lookup name record = some filled) : filled.Valid := by
  induction record with
  | nil => exact nomatch hlookup
  | cons e rest ih =>
      obtain ⟨he, hrest⟩ := List.forall_mem_cons.mp h
      rw [List.lookup_cons] at hlookup
      split at hlookup
      · cases hlookup
        exact he
      · exact ih hrest hlookup

/-- A node that is made of valid fields is valid: operators and updates are checked, and the other
kinds have no rules. -/
theorem assemble_valid (kind : NodeKind) {record : Record} (hrecord : record.Valid) :
    Gives Valid (assemble kind record) := by
  -- whatever is found in the record is valid
  have hnode {name : String} {n : Node} (hn : List.lookup name record = some (.node n)) :
      n.Valid := hrecord.lookup hn
  have hnodes {name : String} {ns : List Node} (hn : List.lookup name record = some (.nodes ns)) :
      ∀ n ∈ ns, n.Valid := hrecord.lookup hn
  have hentries {name : String} {es : List (Node × Bool)}
      (hn : List.lookup name record = some (.entries es)) : ∀ e ∈ es, e.1.Valid :=
    hrecord.lookup hn
  unfold assemble
  dsimp only
  cases kind with
  | constant | symbol =>
      dsimp only
      split
      · exact gives_ok ⟨rfl, nofun⟩
      · exact gives_error _
  | operator =>
      dsimp only
      split
      · next hargs _ =>
          exact gives_mapError fun _ hmade => valid_of_makeOperator hmade (hnodes hargs)
      · next op fn args implicit _ _ hargs _ =>
          have hmade : Gives (fun _ => (Node.operator op fn args implicit).Valid)
              (makeOperator op fn args) :=
            fun _ hmade => valid_operator implicit hmade (hnodes hargs)
          exact gives_map (gives_mapError hmade) fun _ => id
      · exact gives_error _
  | function | array =>
      dsimp only
      split
      · next hargs => exact gives_ok ⟨rfl, hnodes hargs⟩
      · exact gives_error _
  | assignment =>
      dsimp only
      split
      · next hexpr => exact gives_ok ⟨rfl, List.forall_mem_singleton.mpr (hnode hexpr)⟩
      · exact gives_error _
  | functionAssignment =>
      dsimp only
      split
      · next hbody => exact gives_ok ⟨rfl, List.forall_mem_singleton.mpr (hnode hbody)⟩
      · exact gives_error _
  | block =>
      dsimp only
      split
      · next hblocks =>
          refine gives_ok ⟨rfl, fun child hchild => ?_⟩
          obtain ⟨e, he, rfl⟩ := List.mem_map.mp hchild
          exact hentries hblocks e he
      · exact gives_error _
  | conditional =>
      dsimp only
      split
      · next hcondition htrue hfalse =>
          refine gives_ok ⟨rfl, ?_⟩
          rw [children, List.forall_mem_cons, List.forall_mem_cons, List.forall_mem_singleton]
          exact ⟨hnode hcondition, hnode htrue, hnode hfalse⟩
      · exact gives_error _
  | index =>
      dsimp only
      split
      · next hobject hdimensions =>
          exact gives_ok ⟨rfl, List.forall_mem_cons.mpr ⟨hnode hobject, hnodes hdimensions⟩⟩
      · exact gives_error _
  | range =>
      dsimp only
      split
      · next hstart hstop hstep =>
          refine gives_ok ⟨rfl, ?_⟩
          rw [children, List.forall_mem_cons, List.forall_mem_cons, List.forall_mem_singleton]
          exact ⟨hnode hstart, hnode hstop, hnode hstep⟩
      · next hstart hstop _ =>
          refine gives_ok ⟨rfl, ?_⟩
          rw [children, List.forall_mem_cons, List.forall_mem_singleton]
          exact ⟨hnode hstart, hnode hstop⟩
      · exact gives_error _
  | update =>
      dsimp only
      split
      · next htarget hexpr =>
          exact gives_mapError fun _ hmade =>
            valid_of_makeUpdate hmade (hnode htarget) (hnode hexpr)
      · exact gives_error _

theorem assembleEntry_valid {record : Record} (hrecord : record.Valid) :
    Gives Filled.Valid (assembleEntry record) := by
  unfold assembleEntry
  split
  · next node visible hnode _ =>
      have hentry : node.Valid := hrecord.lookup hnode
      exact gives_ok hentry
  · exact gives_error _

theorem assembleReference_valid (record : Record) :
    Gives Filled.Valid (assembleReference record) := by
  unfold assembleReference
  split
  · exact gives_ok trivial
  · exact gives_error _

theorem nodesOf_valid {filled : List Filled} (h : ∀ f ∈ filled, f.Valid) :
    ∀ n ∈ nodesOf filled, n.Valid := by
  intro n hn
  obtain ⟨f, hf, hfn⟩ := List.mem_filterMap.mp hn
  cases f with
  | node m =>
      cases hfn
      exact h _ hf
  | _ => exact nomatch hfn

theorem entriesOf_valid {filled : List Filled} (h : ∀ f ∈ filled, f.Valid) :
    ∀ e ∈ entriesOf filled, e.1.Valid := by
  intro e he
  obtain ⟨f, hf, hfe⟩ := List.mem_filterMap.mp he
  cases f with
  | entry e =>
      cases hfe
      exact h _ hf
  | _ => exact nomatch hfe

/-- The node made of the fields that have been read. -/
theorem assembled_valid (kind : NodeKind) {fields : Except ReadFault Record}
    (hfields : Gives Record.Valid fields) :
    Gives Filled.Valid (fields >>= fun record => assemble kind record >>= fun node =>
      .ok (.node node)) := by
  refine gives_bind hfields fun record hrecord => ?_
  refine gives_bind (assemble_valid kind hrecord) fun node hnode => ?_
  have hfilled : (Filled.node node).Valid := hnode
  exact gives_ok hfilled

mutual

/-- Whatever is read from a document for a slot, the nodes in it are valid. -/
theorem read_valid (slot : Slot) (d : Document) : Gives Filled.Valid (read slot d) := by
  unfold read
  cases slot with
  | text =>
      cases d with
      | string => exact gives_ok trivial
      | _ => exact gives_error _
  | flag =>
      cases d with
      | bool => exact gives_ok trivial
      | _ => exact gives_error _
  | texts =>
      cases d with
      | sequence => exact gives_map (gives_any _) fun _ _ => trivial
      | _ => exact gives_error _
  | literal => exact gives_map (gives_any _) fun _ _ => trivial
  -- a mapping has its fields under names, a sequence in the order of the schema
  | reference =>
      cases d with
      | mapping => exact gives_bind (readFields_valid .nil _ _) fun _ _ => assembleReference_valid _
      | sequence => exact gives_bind (readItems_valid _ _) fun _ _ => assembleReference_valid _
      | _ => exact gives_error _
  | entry =>
      cases d with
      | mapping => exact gives_bind (readFields_valid .nil _ _) fun _ => assembleEntry_valid
      | sequence => exact gives_bind (readItems_valid _ _) fun _ => assembleEntry_valid
      | _ => exact gives_error _
  | node nested =>
      cases d with
      | mapping =>
          exact gives_bind (gives_any _) fun kind _ =>
            assembled_valid kind (readFields_valid .nil _ _)
      | sequence items =>
          cases items with
          | nil => exact gives_error _
          | cons =>
              exact gives_bind (gives_any _) fun kind _ =>
                assembled_valid kind (readItems_valid _ _)
      | _ => exact gives_error _
  | optionalNode =>
      cases d with
      | null => exact gives_ok trivial
      | mapping =>
          exact gives_bind (gives_any _) fun kind _ =>
            assembled_valid kind (readFields_valid .nil _ _)
      | sequence items =>
          cases items with
          | nil => exact gives_error _
          | cons =>
              exact gives_bind (gives_any _) fun kind _ =>
                assembled_valid kind (readItems_valid _ _)
      | _ => exact gives_error _
  | nodes =>
      cases d with
      | sequence => exact gives_map (readAll_valid _ _) fun _ => nodesOf_valid
      | _ => exact gives_error _
  | entries =>
      cases d with
      | sequence => exact gives_map (readAll_valid _ _) fun _ => entriesOf_valid
      | _ => exact gives_error _

theorem readFields_valid {record : Record} (hrecord : record.Valid) (fields : List Field)
    (entries : List (String × Document)) :
    Gives Record.Valid (readFields fields record entries) := by
  match entries with
  | [] =>
      rw [readFields]
      exact gives_map (gives_any _) fun _ _ => hrecord
  | (name, d) :: rest =>
      rw [readFields]
      split
      · exact readFields_valid hrecord fields rest
      · next field _ =>
          split
          · exact gives_error _
          · refine gives_bind (read_valid field.slot d) fun filled hfilled => ?_
            refine readFields_valid ?_ fields rest
            exact List.forall_mem_append.mpr ⟨hrecord, List.forall_mem_singleton.mpr hfilled⟩

theorem readItems_valid (fields : List Field) (items : List Document) :
    Gives Record.Valid (readItems fields items) := by
  match fields, items with
  | [], [] => exact gives_ok .nil
  | [], _ :: _ => exact gives_error _
  | _ :: _, [] => exact gives_map (gives_any _) fun _ _ => .nil
  | field :: fields, d :: rest =>
      rw [readItems]
      refine gives_bind (read_valid field.slot d) fun filled hfilled => ?_
      refine gives_map (readItems_valid fields rest) fun record hrecord => ?_
      exact List.forall_mem_cons.mpr ⟨hfilled, hrecord⟩

theorem readAll_valid (slot : Slot) (items : List Document) :
    Gives (fun filled => ∀ f ∈ filled, f.Valid) (readAll slot items) := by
  match items with
  | [] => exact gives_ok nofun
  | d :: rest =>
      rw [readAll]
      refine gives_bind (read_valid slot d) fun first hfirst => ?_
      exact gives_map (readAll_valid slot rest) fun _ hrest =>
        List.forall_mem_cons.mpr ⟨hfirst, hrest⟩

end

/-- Whatever tree a document holds is valid. -/
theorem ofDocument_valid (d : Document) : Gives Valid (ofDocument d) := by
  refine gives_bind (read_valid (.node false) d) fun filled hfilled => ?_
  split
  · exact gives_ok hfilled
  · exact gives_error _

theorem ofJson_valid (text : String) : Gives Valid (ofJson text) := by
  unfold ofJson
  dsimp only
  split
  · exact gives_error _
  · next d _ _ =>
      have hread := ofDocument_valid d
      split
      · exact gives_error _
      · next node hnode =>
          split
          · exact gives_ok (hread node hnode)
          · exact gives_error _

theorem ofYaml_valid (text : String) : Gives Valid (ofYaml text) := by
  unfold ofYaml
  split
  · exact gives_error _
  · next d _ => exact gives_mapError (ofDocument_valid d)

/-- Whatever tree a text holds is valid. -/
theorem ofText_valid (format : SourceFormat) (text : String) :
    Gives Valid (ofText format text) := by
  refine gives_mapError ?_
  cases format with
  | json => exact ofJson_valid text
  | yaml => exact ofYaml_valid text
  | either =>
      show Gives Valid (ofJson text <|> ofYaml text)
      cases h : ofJson text with
      | error fault => exact ofYaml_valid text
      | ok node => exact gives_ok (ofJson_valid text node h)

/-! ## How trees come about -/

/-- The trees that come about when trees are read, nodes are made, taken out of trees, rebuilt and
exchanged. Operators and updates are made by the functions that check them. -/
inductive Obtained : Node → Prop where
  | read {format : SourceFormat} {text : String} {node : Node}
      (h : ofText format text = .ok node) : Obtained node
  | plain {node : Node} (hoperator : node.kind ≠ .operator) (hupdate : node.kind ≠ .update)
      (hchildren : ∀ c ∈ node.children, Obtained c) : Obtained node
  | operator {op fn : String} {args : List Node} {node : Node} (implicit : Bool)
      (h : makeOperator op fn args = .ok node) (hargs : ∀ arg ∈ args, Obtained arg) :
      Obtained (.operator op fn args implicit)
  | update {target expr node : Node} (h : makeUpdate target expr = .ok node)
      (htarget : Obtained target) (hexpr : Obtained expr) : Obtained node
  | part {child tree : Node} (hchild : child ∈ tree.children) (h : Obtained tree) :
      Obtained child
  | withChildren {node rebuilt : Node} {cs : List Node} (hnode : Obtained node)
      (hcs : ∀ c ∈ cs, Obtained c) (h : node.withChildren cs = .ok rebuilt) : Obtained rebuilt
  | mapChildren {node rebuilt : Node} {f : Node → Nat → Node} (hnode : Obtained node)
      (hf : ∀ i child, node.children[i]? = some child → Obtained (f child i))
      (h : node.mapChildren f = .ok rebuilt) : Obtained rebuilt
  | transform {ε σ : Type} {fault : NodeError → ε}
      {replace : Visit → ExceptT ε (StateM σ) (Option Node)} {node after : Node} {s : σ}
      (hnode : Obtained node) (hsupplied : ∀ r ∈ supplied fault replace node s, Obtained r)
      (h : (node.transform (fun e => throw (fault e)) replace s).1 = .ok after) : Obtained after

theorem Obtained.valid {node : Node} (h : Obtained node) : node.Valid := by
  induction h with
  | read h => exact ofText_valid _ _ _ h
  | plain hoperator hupdate _ ih =>
      exact (valid_iff _).mpr ⟨isSound_of_kind hoperator hupdate, ih⟩
  | operator implicit h _ ih => exact valid_operator implicit h ih
  | update h _ _ htarget hexpr => exact valid_of_makeUpdate h htarget hexpr
  | part hchild _ ih => exact ih.of_mem_children hchild
  | withChildren _ _ h ihnode ihcs => exact ihnode.withChildren ihcs h
  | mapChildren _ _ h ihnode ihf => exact ihnode.mapChildren ihf h
  | transform _ _ h ihnode ihsupplied => exact ihnode.transform _ _ ihsupplied h

/-! ## What updates change -/

/-- An update in a valid tree changes an index node. -/
theorem eq_index_of_within {tree target expr : Node} (hvalid : tree.Valid)
    (h : Within (.update target expr) tree) :
    ∃ object dimensions, target = .index object dimensions := by
  have hsound := ((valid_iff _).mp (Valid.of_within h hvalid)).1
  rw [isSound, beq_iff_eq] at hsound
  exact Compiler.eq_index_of_kind hsound

/-- No node of a valid tree fails its check for having something else to change. -/
theorem not_fails_notIndex {tree node : Node} (hvalid : tree.Valid) (h : Within node tree)
    (entries : Namespace) (kind : NodeKind) :
    ¬Fails entries tree node (.node (.notIndex kind)) := by
  rintro (⟨⟨⟩⟩ | ⟨-, ⟨⟩⟩ | _ | hkind)
  obtain ⟨object, dimensions, rfl⟩ := eq_index_of_within hvalid h
  exact hkind rfl

/-- Compiling a valid tree does not fail for it either, since each error of a compilation is the
error of a node. -/
theorem compile_ne_notIndex {tree : Node} (hvalid : tree.Valid) (entries : Namespace)
    (kind : NodeKind) : (tree.compile entries).1 ≠ .error (.node (.notIndex kind)) := by
  intro hcompile
  have hstops := Compiler.node_stops entries tree.locals tree #[]
  rw [compile] at hcompile
  cases hrun : (Compiler.node entries tree.locals tree).run #[] with
  | mk outcome events =>
      rw [hrun] at hcompile hstops
      cases outcome with
      | ok code => cases hcompile
      | error error =>
          cases hcompile
          obtain ⟨node, hnode, hfault⟩ := List.exists_of_findSome?_eq_some hstops.symm
          rw [Compiler.fault_eq_some_iff] at hfault
          have hwithin := (mem_preorder_iff node tree).mp hnode
          exact not_fails_notIndex hvalid hwithin entries kind hfault

/-- **Trees are valid however they come about.** Whatever tree is read from a text is valid. A
valid tree stays so when it is rebuilt, when its children are mapped and when it is transformed by
any callback, as long as the nodes that are put into it are valid. So in a tree that has come about
in these ways and by making nodes, each update has an index node to select with, and no compilation
of the tree finds it missing. -/
theorem trees_stay_valid :
    (∀ format text node, ofText format text = .ok node → node.Valid) ∧
      (∀ node : Node, node.Valid →
        (∀ cs rebuilt, (∀ c ∈ cs, c.Valid) → node.withChildren cs = .ok rebuilt →
          rebuilt.Valid) ∧
        (∀ f rebuilt, (∀ i child, node.children[i]? = some child → (f child i).Valid) →
          node.mapChildren f = .ok rebuilt → rebuilt.Valid) ∧
        ∀ (ε σ : Type) (fault : NodeError → ε)
          (replace : Visit → ExceptT ε (StateM σ) (Option Node)) (s : σ) (after : Node),
          (∀ other ∈ supplied fault replace node s, other.Valid) →
            (node.transform (fun e => throw (fault e)) replace s).1 = .ok after → after.Valid) ∧
      ∀ tree : Node, Obtained tree →
        (∀ target expr, Within (.update target expr) tree →
          ∃ object dimensions, target = .index object dimensions) ∧
        ∀ entries kind, (tree.compile entries).1 ≠ .error (.node (.notIndex kind)) := by
  refine ⟨ofText_valid, fun node hvalid => ⟨?_, ?_, ?_⟩, fun tree htree => ⟨?_, ?_⟩⟩
  · intro cs rebuilt hcs h
    exact hvalid.withChildren hcs h
  · intro f rebuilt hf h
    exact hvalid.mapChildren hf h
  · intro ε σ fault replace s after hsupplied h
    exact hvalid.transform fault replace hsupplied h
  · intro target expr h
    exact eq_index_of_within htree.valid h
  · intro entries kind
    exact compile_ne_notIndex htree.valid entries kind

/-- The update `A[i] = e`. -/
def indexUpdate : Node := .update (.index (.symbol "A") [.symbol "i"]) (.symbol "e")

/-- A JSON text of the update. -/
def indexUpdateText : String :=
  "\x7b\"type\":\"UpdateNode\",\"expr\":\x7b\"type\":\"SymbolNode\",\"name\":\"e\"\x7d," ++
    "\"index\":\x7b\"type\":\"IndexNode\",\"object\":\x7b\"type\":\"SymbolNode\"," ++
    "\"name\":\"A\"\x7d,\"dimensions\":[\x7b\"type\":\"SymbolNode\",\"name\":\"i\"\x7d]\x7d\x7d"

/-- Another index node. -/
def nullIndex : Node := .index (.symbol "A") [.constant .null]

/-- Exchanges every index node, and counts them. -/
def exchangeIndex : Visit → ExceptT NodeError (StateM Nat) (Option Node) := fun visit count =>
  if visit.node.kind = .index then (.ok (some nullIndex), count + 1) else (.ok none, count)

theorem supplied_exchangeIndex : supplied id exchangeIndex indexUpdate 0 = [nullIndex] := by
  cbv

theorem transform_exchangeIndex : (indexUpdate.transform (fun e => throw (id e)) exchangeIndex 0).1
    = .ok (.update nullIndex (.symbol "e")) := by
  cbv

/-- The update is valid when it is read, and in each way to give it the other index node. -/
theorem trees_stay_valid_exchanged :
    (ofText .json indexUpdateText = .ok indexUpdate ∧ indexUpdate.Valid) ∧
      (indexUpdate.withChildren [nullIndex, .symbol "A"] = .ok (.update nullIndex (.symbol "A")) ∧
        (Node.update nullIndex (.symbol "A")).Valid) ∧
      (indexUpdate.mapChildren (fun _ _ => nullIndex) = .ok (.update nullIndex nullIndex) ∧
        (Node.update nullIndex nullIndex).Valid) ∧
      (supplied id exchangeIndex indexUpdate 0 = [nullIndex] ∧
        (indexUpdate.transform (fun e => throw (id e)) exchangeIndex 0).1
          = .ok (.update nullIndex (.symbol "e")) ∧
        (Node.update nullIndex (.symbol "e")).Valid) ∧
      Obtained (.update nullIndex (.symbol "e")) ∧
        (∃ object dimensions, nullIndex = .index object dimensions) ∧
        ((Node.update nullIndex (.symbol "e")).compile []).1
          ≠ .error (.node (.notIndex .index)) := by
  obtain ⟨reading, changing, obtaining⟩ := trees_stay_valid
  have hread : ofText .json indexUpdateText = .ok indexUpdate := by cbv
  have hvalid : indexUpdate.Valid := reading _ _ _ hread
  have hsymbol (name : String) : Valid (.symbol name) := ⟨rfl, List.forall_mem_nil _⟩
  have hnull : nullIndex.Valid :=
    ⟨rfl, List.forall_mem_cons.mpr ⟨hsymbol "A",
      List.forall_mem_singleton.mpr ⟨rfl, List.forall_mem_nil _⟩⟩⟩
  obtain ⟨rebuilding, mapping, transforming⟩ := changing indexUpdate hvalid
  have hchildren : ∀ c ∈ [nullIndex, .symbol "A"], c.Valid :=
    List.forall_mem_cons.mpr ⟨hnull, List.forall_mem_singleton.mpr (hsymbol "A")⟩
  have hsupplied := supplied_exchangeIndex
  have htransform := transform_exchangeIndex
  have hnodes : ∀ other ∈ supplied id exchangeIndex indexUpdate 0, other.Valid := by
    rw [hsupplied]
    exact List.forall_mem_singleton.mpr hnull
  -- the other index node is made of a symbol and a constant, which have no rules to keep
  have hleaf {node : Node} (h : node.children = []) (hoperator : node.kind ≠ .operator)
      (hupdate : node.kind ≠ .update) : Obtained node := by
    refine .plain hoperator hupdate ?_
    rw [h]
    exact List.forall_mem_nil _
  have hparts : ∀ c ∈ nullIndex.children, Obtained c := by
    refine List.forall_mem_cons.mpr
      ⟨hleaf rfl (by decide) (by decide), List.forall_mem_singleton.mpr ?_⟩
    exact hleaf rfl (by decide) (by decide)
  have hobtained : Obtained (.update nullIndex (.symbol "e")) := by
    refine .transform (.read hread) (fun r hr => ?_) htransform
    rw [hsupplied, List.mem_singleton] at hr
    rw [hr]
    exact .plain (by decide) (by decide) hparts
  obtain ⟨selecting, compiling⟩ := obtaining _ hobtained
  exact ⟨⟨hread, hvalid⟩, ⟨rfl, rebuilding _ _ hchildren rfl⟩,
    ⟨rfl, mapping _ _ (fun _ _ _ => hnull) rfl⟩,
    ⟨hsupplied, htransform, transforming _ _ _ _ _ _ hnodes htransform⟩, hobtained,
    selecting _ _ (.root _), compiling [] .index⟩

end Formula.Node
