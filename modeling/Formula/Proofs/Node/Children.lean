import Formula.Proofs.Node.Rebuild
import Mathlib.Data.List.Nodup

set_option autoImplicit false

/-! # Children taken out and put back

A node is its outline, which is all that it holds besides its children, and the list of its children
(`eq_of_outline_eq`). Rebuilding a node keeps the outline and exchanges the list. It succeeds with
the lists that the node accepts and with no others (`withChildren_of_accepts`,
`accepts_of_withChildren`), so a node that gets its own children back is the same node. Every child
has a label of its own (`nodup_labels`).
-/

namespace Formula.Node

/-- What a node holds besides its children: its kind, names, flags and literal. Of an optional child
it says whether there is one. -/
inductive Outline where
  | constant (value : Literal)
  | symbol (name : String)
  | operator (op fn : String) (implicit : Bool)
  | function (name : String)
  | array
  | assignment (name : String)
  | block (shown : List Bool)
  | conditional
  | functionAssignment (name : String) (params : List String)
  | index
  | range (hasStep : Bool)
  | update

/-- The kind of the nodes with an outline. -/
def Outline.kind : Outline → NodeKind
  | constant _ => .constant
  | symbol _ => .symbol
  | operator .. => .operator
  | function _ => .function
  | array => .array
  | assignment _ => .assignment
  | block _ => .block
  | conditional => .conditional
  | functionAssignment .. => .functionAssignment
  | index => .index
  | range _ => .range
  | update => .update

/-- The outline of a node. -/
def outline : Node → Outline
  | .constant value => .constant value
  | .symbol name => .symbol name
  | .operator op fn _ implicit => .operator op fn implicit
  | .function name _ => .function name
  | .array _ => .array
  | .assignment name _ => .assignment name
  | .block entries => .block (entries.map Prod.snd)
  | .conditional .. => .conditional
  | .functionAssignment name params _ => .functionAssignment name params
  | .index .. => .index
  | .range _ _ step => .range step.isSome
  | .update .. => .update

/-- A list can take the place of the children: it is as long, and it begins with an index node if
the node is an update. -/
structure Accepts (node : Node) (cs : List Node) : Prop where
  count : cs.length = node.children.length
  target : node.kind = .update → ∃ target, cs.head? = some target ∧ target.kind = .index

variable {node : Node} {cs : List Node}

/-! ## Outline and children -/

theorem kind_outline (node : Node) : node.outline.kind = node.kind := by
  cases node <;> rfl

/-- The statements of a block are its children with their flags. -/
theorem zip_entries (entries : List (Node × Bool)) :
    (entries.map Prod.fst).zip (entries.map Prod.snd) = entries := by
  rw [List.zip_map']
  exact List.map_id _

/-- A node is determined by its outline and its children. -/
theorem eq_of_outline_eq {other : Node} (houtline : other.outline = node.outline)
    (hchildren : other.children = node.children) : other = node := by
  -- the outlines have the same constructor, so the nodes have
  cases node with
  | constant | symbol => cases other <;> cases houtline; rfl
  | operator | function | array | assignment | conditional | functionAssignment | index | update =>
      cases other <;> cases houtline
      cases hchildren
      rfl
  | block entries =>
      cases other with
      | block entries' =>
          have hshown : entries'.map Prod.snd = entries.map Prod.snd := Outline.block.inj houtline
          have hnodes : entries'.map Prod.fst = entries.map Prod.fst := hchildren
          rw [← zip_entries entries', hshown, hnodes, zip_entries]
      | _ => cases houtline
  | range start stop step =>
      cases other with
      | range start' stop' step' =>
          cases step <;> cases step' <;> cases houtline <;> cases hchildren <;> rfl
      | _ => cases houtline

/-! ## Rebuilding -/

/-- A node other than an update takes every list that is as long as the one of its children. -/
theorem withChildren_of_length_eq (hkind : node.kind ≠ .update)
    (hlength : cs.length = node.children.length) :
    ∃ rebuilt, node.withChildren cs = .ok rebuilt ∧ rebuilt.outline = node.outline := by
  cases node with
  | constant | symbol =>
      obtain rfl := List.length_eq_zero_iff.mp hlength
      exact ⟨_, rfl, rfl⟩
  | operator | function | array => exact ⟨_, if_pos hlength, rfl⟩
  | assignment | functionAssignment =>
      obtain ⟨child, rfl⟩ := List.length_eq_one_iff.mp hlength
      exact ⟨_, rfl, rfl⟩
  | block entries =>
      -- the flags of the entries stay, only their nodes are exchanged
      have hcount : cs.length = entries.length := by simpa [children] using hlength
      refine ⟨_, if_pos hcount, ?_⟩
      simp [outline, List.map_snd_zip, hcount]
  | conditional =>
      obtain ⟨a, b, c, rfl⟩ := List.length_eq_three.mp hlength
      exact ⟨_, rfl, rfl⟩
  | index object dimensions =>
      cases cs with
      | nil => cases hlength
      | cons object' dimensions' => exact ⟨_, if_pos (Nat.succ.inj hlength), rfl⟩
  | range start stop step =>
      cases step with
      | none =>
          obtain ⟨a, b, rfl⟩ := List.length_eq_two.mp hlength
          exact ⟨_, rfl, rfl⟩
      | some step =>
          obtain ⟨a, b, c, rfl⟩ := List.length_eq_three.mp hlength
          exact ⟨_, rfl, rfl⟩
  | update => exact absurd rfl hkind

/-- An update checks what it is to change. -/
theorem withChildren_update (target expr child other : Node) :
    (Node.update target expr).withChildren [child, other] = makeUpdate child other := rfl

/-- A list of another length is refused. -/
theorem withChildren_of_length_ne (h : cs.length ≠ node.children.length) :
    node.withChildren cs
      = .error (.childCount node.kind node.children.length cs.length) := by
  cases node with
  | operator | function | array => exact if_neg h
  | block => exact if_neg fun hcount => h (hcount.trans (List.length_map _).symm)
  | index =>
      cases cs with
      | nil => rfl
      | cons => exact if_neg fun hcount => h (congrArg Nat.succ hcount)
  | range start stop step =>
      cases step with
      | none | some step =>
          rcases cs with _ | ⟨a, _ | ⟨b, _ | ⟨c, _ | ⟨d, rest⟩⟩⟩⟩
          all_goals first | rfl | exact absurd rfl h
  | constant | symbol | assignment | conditional | functionAssignment | update =>
      rcases cs with _ | ⟨a, _ | ⟨b, _ | ⟨c, _ | ⟨d, rest⟩⟩⟩⟩
      all_goals first | rfl | exact absurd rfl h

/-- A node is rebuilt with every list that it accepts, and keeps its outline. -/
theorem withChildren_of_accepts (h : node.Accepts cs) :
    ∃ rebuilt, node.withChildren cs = .ok rebuilt ∧ rebuilt.outline = node.outline := by
  by_cases hkind : node.kind = .update
  · cases node with
    | update target expr =>
        obtain ⟨child, other, rfl⟩ := List.length_eq_two.mp h.count
        obtain ⟨child', hhead, hindex⟩ := h.target rfl
        cases hhead
        exact ⟨_, if_pos hindex, rfl⟩
    | _ => cases hkind
  · exact withChildren_of_length_eq hkind h.count

theorem accepts_of_withChildren {rebuilt : Node} (h : node.withChildren cs = .ok rebuilt) :
    node.Accepts cs := by
  have hcount : cs.length = node.children.length := by
    by_contra hne
    rw [withChildren_of_length_ne hne] at h
    cases h
  refine ⟨hcount, fun hkind => ?_⟩
  cases node with
  | update target expr =>
      obtain ⟨child, other, rfl⟩ := List.length_eq_two.mp hcount
      rw [withChildren_update] at h
      exact ⟨child, rfl, (eq_of_makeUpdate h).2⟩
  | _ => cases hkind

/-- A node that accepts its own children is the same when it gets them back. -/
theorem withChildren_self (h : node.Accepts node.children) :
    node.withChildren node.children = .ok node := by
  obtain ⟨rebuilt, hrebuilt, houtline⟩ := withChildren_of_accepts h
  rw [hrebuilt, eq_of_outline_eq houtline (children_of_withChildren hrebuilt)]

/-! ## Labels -/

theorem length_labels (node : Node) : node.labels.length = node.children.length := by
  cases node with
  | range start stop step => cases step <;> rfl
  | _ => simp [labels, labels.numbered, children]

/-- Numbers in brackets tell labels apart. -/
theorem numbered_injective (name : String) :
    Function.Injective fun i : Nat => s!"{name}[{i}]" := by
  intro i j h
  have hdigits : Nat.toDigits 10 i = Nat.toDigits 10 j := by
    have hchars := congrArg String.toList h
    simpa [Nat.toString_eq_ofList_toDigits] using hchars
  calc i = Nat.ofDigitChars 10 (Nat.toDigits 10 i) 0 := Nat.ofDigitChars_ten_toDigits.symm
    _ = Nat.ofDigitChars 10 (Nat.toDigits 10 j) 0 := by rw [hdigits]
    _ = j := Nat.ofDigitChars_ten_toDigits

theorem nodup_numbered (name : String) (count : Nat) : (labels.numbered name count).Nodup :=
  List.nodup_range.map (numbered_injective name)

/-- No two children have the same label. -/
theorem nodup_labels (node : Node) : node.labels.Nodup := by
  cases node with
  | constant | symbol => exact List.nodup_nil
  | operator | function | array | block => exact nodup_numbered _ _
  | assignment | functionAssignment => exact List.pairwise_singleton _ _
  | conditional | update => simp [labels]
  | range start stop step => cases step <;> simp [labels]
  | index object dimensions =>
      refine List.nodup_cons.mpr ⟨fun h => ?_, nodup_numbered _ _⟩
      obtain ⟨i, -, hi⟩ := List.mem_map.mp h
      -- the first letters differ
      have hfirst := congrArg (fun label : String => label.toList.head?) hi
      simp [toString] at hfirst

theorem isSome_childLabel_iff (node : Node) (i : Nat) :
    (node.childLabel i).isSome = true ↔ i < node.children.length := by
  rw [childLabel, ← length_labels]
  simp

theorem childLabel_inj {i j : Nat} {label : String} (hi : node.childLabel i = some label)
    (hj : node.childLabel j = some label) : i = j := by
  obtain ⟨hi', hi⟩ := List.getElem?_eq_some_iff.mp hi
  obtain ⟨hj', hj⟩ := List.getElem?_eq_some_iff.mp hj
  exact (nodup_labels node).getElem_inj_iff.mp (hi.trans hj.symm)

/-! ## Inverse views -/

/-- Taking the children out of a node and putting children into it are inverse to each other. A node
that accepts its own children gets itself back. A list is put in just if the node accepts it; then
kind and outline stay, which with the children are all that a node is, and the children are the
list. Another list is refused for its length, or else because an update has no index node to begin
with. There is a label for each child and for nothing else, and no label twice. -/
theorem withChildren_inverse (node : Node) :
    (node.Accepts node.children → node.withChildren node.children = .ok node) ∧
      (∀ cs, (∃ rebuilt, node.withChildren cs = .ok rebuilt) ↔ node.Accepts cs) ∧
      (∀ cs rebuilt, node.withChildren cs = .ok rebuilt →
        rebuilt.kind = node.kind ∧ rebuilt.outline = node.outline ∧ rebuilt.children = cs) ∧
      (∀ other : Node, other.outline = node.outline → other.children = node.children →
        other = node) ∧
      (∀ cs, cs.length ≠ node.children.length →
        node.withChildren cs = .error (.childCount node.kind node.children.length cs.length)) ∧
      (∀ target expr : Node, node.kind = .update → target.kind ≠ .index →
        node.withChildren [target, expr] = .error (.notIndex target.kind)) ∧
      (∀ i, (node.childLabel i).isSome = true ↔ i < node.children.length) ∧
      ∀ i j label, node.childLabel i = some label → node.childLabel j = some label → i = j := by
  refine ⟨withChildren_self, fun cs => ⟨?_, fun h => ?_⟩, fun cs rebuilt h => ?_,
    fun _ => eq_of_outline_eq, fun _ => withChildren_of_length_ne,
    fun target expr hkind htarget => ?_, isSome_childLabel_iff node, fun _ _ _ => childLabel_inj⟩
  · rintro ⟨rebuilt, h⟩
    exact accepts_of_withChildren h
  · obtain ⟨rebuilt, hrebuilt, -⟩ := withChildren_of_accepts h
    exact ⟨rebuilt, hrebuilt⟩
  -- what is rebuilt is the node that acceptance gives, so it has its outline
  · obtain ⟨rebuilt', hrebuilt, houtline⟩ := withChildren_of_accepts (accepts_of_withChildren h)
    obtain rfl : rebuilt' = rebuilt := Except.ok.inj (hrebuilt.symm.trans h)
    refine ⟨?_, houtline, children_of_withChildren h⟩
    rw [← kind_outline, houtline, kind_outline]
  · cases node with
    | update => exact if_neg htarget
    | _ => cases hkind

end Formula.Node
