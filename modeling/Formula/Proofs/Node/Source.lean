import Formula.Node.Source
import Formula.Proofs.Binary64
import Formula.Proofs.Format.Json.Value
import Formula.Proofs.Node.Document

set_option autoImplicit false

/-! # Trees in JSON texts

A valid tree is read back from its JSON text. The document of a tree is made of strings, truth
values and the numbers of the tree, and strings and truth values are always read back from their
texts. Numbers are read by scaling, which does not find every number again, so those of the tree
have to be among the ones that are read back.
-/

namespace Formula.Node

open Json (Faithful ReadsBack)

/-- Every number in a tree is finite, and read back from its own text. -/
def NumbersReadBack (node : Node) : Prop :=
  ∀ x : Float, Within (.constant (.number x)) node → x.isFinite = true ∧ ReadsBack (.real x)

theorem NumbersReadBack.of_mem_children {node child : Node} (h : NumbersReadBack node)
    (hchild : child ∈ node.children) : NumbersReadBack child := fun x hx =>
  h x (.child hchild hx)

theorem faithful_string (s : String) : Faithful (.string s) :=
  .scalar (Json.readsBack_string s) rfl

theorem faithful_bool (b : Bool) : Faithful (.bool b) := .scalar (Json.readsBack_bool b) rfl

theorem faithful_tagged (kind : NodeKind) {fields : List (String × Document)}
    (h : ∀ e ∈ fields, Faithful e.2) : Faithful (tagged kind fields) :=
  .mapping (List.forall_mem_cons.mpr ⟨faithful_string _, h⟩)

theorem faithful_literal {value : Literal}
    (h : ∀ x, value = .number x → x.isFinite = true ∧ ReadsBack (.real x)) :
    Faithful (literalDocument value) := by
  cases value with
  | number x =>
      obtain ⟨hfinite, hread⟩ := h x rfl
      have hreal : Faithful (.real x) := .scalar hread hfinite
      exact .mapping (by simp [faithful_string, hreal])
  | string s => exact .mapping (by simp [faithful_string])
  | boolean b => exact .mapping (by simp [faithful_string, faithful_bool])
  | null => exact .mapping (by simp [faithful_string])

theorem faithful_nodes {nodes : List Node} (h : ∀ node ∈ nodes, Faithful (toDocument node)) :
    Faithful (.sequence (toDocuments nodes)) := by
  refine .sequence ?_
  induction nodes with
  | nil => exact nofun
  | cons node rest ih =>
      obtain ⟨hnode, hrest⟩ := List.forall_mem_cons.mp h
      rw [toDocuments]
      exact List.forall_mem_cons.mpr ⟨hnode, ih hrest⟩

theorem faithful_entries {entries : List (Node × Bool)}
    (h : ∀ e ∈ entries, Faithful (toDocument e.1)) :
    Faithful (.sequence (toEntryDocuments entries)) := by
  refine .sequence ?_
  induction entries with
  | nil => exact nofun
  | cons e rest ih =>
      obtain ⟨he, hrest⟩ := List.forall_mem_cons.mp h
      have hentry : Faithful (.mapping [("node", toDocument e.1), ("visible", .bool e.2)]) :=
        .mapping (by simp [he, faithful_bool])
      rw [toEntryDocuments]
      exact List.forall_mem_cons.mpr ⟨hentry, ih hrest⟩

theorem faithful_texts (texts : List String) : Faithful (.sequence (texts.map .string)) := by
  refine .sequence fun d hd => ?_
  obtain ⟨s, -, rfl⟩ := List.mem_map.mp hd
  exact faithful_string s

/-- The document of a tree is read back from its text if the numbers of the tree are. -/
theorem faithful_toDocument (node : Node) (h : NumbersReadBack node) :
    Faithful (toDocument node) := by
  induction node using children_induction with
  | step node ih =>
      -- the fields of a node are texts, flags and the documents of its children
      have hchildren : ∀ child ∈ node.children, Faithful (toDocument child) :=
        fun child hchild => ih child hchild (h.of_mem_children hchild)
      cases node with
      | constant value =>
          have hvalue := faithful_literal fun x hx => h x (hx ▸ .root _)
          rw [toDocument]
          exact faithful_tagged _ (by simp [hvalue])
      | symbol name =>
          rw [toDocument]
          exact faithful_tagged _ (by simp [faithful_string])
      | operator op fn args implicit =>
          have hargs : Faithful (.sequence (toDocuments args)) := faithful_nodes hchildren
          rw [toDocument]
          exact faithful_tagged _ (by simp [faithful_string, faithful_bool, hargs])
      | function name args =>
          have hargs : Faithful (.sequence (toDocuments args)) := faithful_nodes hchildren
          have hname : Faithful (.mapping [("name", .string name)]) :=
            .mapping (by simp [faithful_string])
          rw [toDocument]
          exact faithful_tagged _ (by simp [hname, hargs])
      | array items =>
          have hitems : Faithful (.sequence (toDocuments items)) := faithful_nodes hchildren
          rw [toDocument]
          exact faithful_tagged _ (by simp [hitems])
      | block entries =>
          have hentries := faithful_entries fun e he => hchildren e.1 (List.mem_map_of_mem he)
          rw [toDocument]
          exact faithful_tagged _ (by simp [hentries])
      | functionAssignment name params body =>
          have hparams := faithful_texts params
          rw [toDocument]
          exact faithful_tagged _ (by simp_all [children, faithful_string])
      | index object dimensions =>
          have hdimensions := faithful_nodes fun d hd => hchildren d (List.mem_cons_of_mem _ hd)
          have hobject := hchildren object List.mem_cons_self
          rw [toDocument]
          exact faithful_tagged _ (by simp [hobject, hdimensions])
      | range start stop step =>
          cases step with
          | none | some step =>
              rw [toDocument]
              exact faithful_tagged _ (by simpa [children] using hchildren)
      | conditional _ _ _ | update _ _ =>
          rw [toDocument]
          exact faithful_tagged _ (by simpa [children] using hchildren)
      | assignment name expr =>
          rw [toDocument]
          exact faithful_tagged _ (by simpa [children, faithful_string] using hchildren)

theorem equalsAll_self {nodes : List Node} (h : ∀ node ∈ nodes, node.equals node = true) :
    equalsAll nodes nodes = true := by
  induction nodes with
  | nil => rfl
  | cons node rest ih =>
      obtain ⟨hnode, hrest⟩ := List.forall_mem_cons.mp h
      rw [equalsAll, hnode, ih hrest]
      rfl

theorem equalsEntries_self {entries : List (Node × Bool)}
    (h : ∀ e ∈ entries, e.1.equals e.1 = true) : equalsEntries entries entries = true := by
  induction entries with
  | nil => rfl
  | cons e rest ih =>
      obtain ⟨he, hrest⟩ := List.forall_mem_cons.mp h
      rw [equalsEntries, he, ih hrest, beq_self_eq_true]
      rfl

/-- A tree is equal to itself if its numbers are finite. -/
theorem equals_self (node : Node)
    (h : ∀ x : Float, Within (.constant (.number x)) node → x.isFinite = true) :
    node.equals node = true := by
  induction node using children_induction with
  | step node ih =>
      have hchildren : ∀ child ∈ node.children, child.equals child = true :=
        fun child hchild => ih child hchild fun x hx => h x (.child hchild hx)
      cases node with
      | constant value =>
          rw [equals]
          -- only numbers can differ from themselves, and finite ones do not
          cases value with
          | number x => exact Binary64.beq_self_of_isFinite (h x (.root _))
          | string s => exact beq_self_eq_true s
          | boolean b => exact beq_self_eq_true b
          | null => rfl
      | block entries =>
          rw [equals]
          exact equalsEntries_self fun e he => hchildren e.1 (List.mem_map_of_mem he)
      | operator _ _ _ _ | function _ _ | array _ =>
          have hargs := equalsAll_self hchildren
          simp_all [equals, children]
      | index object dimensions =>
          have hobject := hchildren object List.mem_cons_self
          have hdimensions := equalsAll_self fun d hd => hchildren d (List.mem_cons_of_mem _ hd)
          rw [equals, hobject, hdimensions]
          rfl
      | range start stop step => cases step <;> simp_all [equals, children]
      | symbol _ | assignment _ _ | conditional _ _ _ | functionAssignment _ _ _ | update _ _ =>
          simp_all [equals, children]

/-- A valid tree is read back from its JSON text, in which arrays and objects nest no deeper than a
text may, if each of its numbers is finite and is read back from the text of that number. -/
theorem ofText_write_toDocument {node : Node} (hvalid : node.Valid)
    (hnumbers : NumbersReadBack node) (hlevels : node.toDocument.nesting ≤ Json.maxNesting) :
    ofText (.ofExtension (some "json")) (Json.write node.toDocument) = .ok node
      ∧ node.equals node = true := by
  have hfront := Json.front?_chars (faithful_toDocument node hnumbers) hlevels
  have hread : ofJson (Json.write node.toDocument) = .ok node := by
    rw [ofJson, Json.write, String.toList_ofList]
    simp only [hfront, ofDocument_toDocument hvalid]
    rfl
  refine ⟨?_, equals_self node fun x hx => (hnumbers x hx).1⟩
  show (ofJson _).mapError _ = _
  rw [hread]
  rfl

/-- An update with names, an operator and a string that take escapes, and a number. -/
def escapes : Node :=
  .update (.index (.symbol "\"\\") [.constant (.number 2.5)])
    (.operator "+\n" "\x01" [.constant (.string "é\x1f\t")] true)

theorem ofText_write_toDocument_escapes :
    ofText .json (Json.write escapes.toDocument) = .ok escapes
      ∧ escapes.equals escapes = true := by
  have hleaf (value : Literal) : Valid (.constant value) := ⟨rfl, nofun⟩
  have hname : Valid (.symbol "\"\\") := ⟨rfl, nofun⟩
  have hvalid : escapes.Valid := by
    refine ⟨rfl, List.forall_mem_cons.mpr ⟨⟨rfl, ?_⟩, List.forall_mem_singleton.mpr ⟨rfl, ?_⟩⟩⟩
    · simp [children, hname, hleaf]
    · simp [children, hleaf]
  -- the number is written and read by evaluation, each half on its own
  have hread : ReadsBack (.real 2.5) := by
    have htext : Decimal.jsonText 2.5 = "2.5" := by decide +kernel
    have hscaled : Decimal.scaled ['2'] ['5'] 0 = 2.5 := by decide +kernel
    show Json.simple? (Decimal.jsonText 2.5).toList = _
    rw [htext]
    show some (Document.real (Decimal.scaled ['2'] ['5'] 0), []) = _
    rw [hscaled]
  have hnumbers : NumbersReadBack escapes := by
    intro x hx
    rw [← mem_preorder_iff] at hx
    have hx : x = 2.5 := by simpa [preorder_eq, children, escapes] using hx
    rw [hx]
    exact ⟨by decide, hread⟩
  exact ofText_write_toDocument hvalid hnumbers (by decide)

end Formula.Node
