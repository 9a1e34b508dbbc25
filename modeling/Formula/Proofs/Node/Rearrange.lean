import Formula.Proofs.Node.FieldOrder
import Formula.Proofs.Node.Source
import Mathlib.Logic.Relation

set_option autoImplicit false

/-! # Documents that hold one tree

What a document is read as does not depend on the order of the members of its mappings, nor on
members with names that are not looked for. `Move` is one such change, anywhere in a document; a
move keeps what is read, or keeps that nothing can be read, also where the document is no tree.
-/

namespace Formula.Node

open Outcome
open Json (Faithful)

/-! ## Moves -/

/-- The type of the node that a document is, if it has one that can be read. -/
def kindOf (nested : Bool) : Document → Except ReadFault NodeKind
  | .mapping entries => mappingKind nested entries
  | .sequence (type :: _) => readKind nested type
  | _ => .error .shape

/-- The fields of a schema as parts of a document: their names and slots. -/
def schemaParts (fields : List Field) : List (String × Option Slot) :=
  fields.map fun f => (f.name, some f.slot)

/-- The parts of a node: its type, which has no slot, and the fields of that type. -/
def nodeParts (kind : Except ReadFault NodeKind) : Option (List (String × Option Slot)) :=
  match kind with
  | .ok kind => some (("type", none) :: schemaParts (schema kind))
  | .error _ => none

/-- What is looked for in a document at a slot, in the order of a sequence: the name of each part,
and its slot if it is a part of the tree. A node whose type cannot be read has no parts that are
known, and the items of a list have no names. -/
def parts? : Slot → Document → Option (List (String × Option Slot))
  | .node nested, d => nodeParts (kindOf nested d)
  | .optionalNode, d => nodeParts (kindOf true d)
  | .literal, _ => some [("valueType", none), ("value", none)]
  | .entry, _ => some (schemaParts entrySchema)
  | .reference, _ => some (schemaParts referenceSchema)
  | .nodes, .sequence items => some (items.map fun _ => ("", some (.node true)))
  | .entries, .sequence items => some (items.map fun _ => ("", some .entry))
  | _, _ => some []

/-- Nothing of the name is looked for in a document at a slot. -/
def Unknown (slot : Slot) (d : Document) (name : String) : Prop :=
  match parts? slot d with
  | some parts => parts.lookup name = none
  | none => name ≠ "type"

/-- The place of a member of a document. In a node without a type any member but the type may be
seen as any part of a tree. -/
def MemberAt (place : Option Slot) (d : Document) (name : String) (inner : Option Slot) : Prop :=
  match place with
  | none => inner = none
  | some slot =>
      match parts? slot d with
      | some parts => inner = (parts.lookup name).join
      | none => name = "type" → inner = none

/-- The place of an item of a document. -/
def ItemAt (place : Option Slot) (d : Document) (i : Nat) (inner : Option Slot) : Prop :=
  match place with
  | none => inner = none
  | some slot =>
      match parts? slot d with
      | some parts => inner = (parts[i]?).bind Prod.snd
      | none => i = 0 → inner = none

/-- One change of a document at a place, which is a slot of a tree or no part of a tree at all. The
first member of a mapping stands for any of them, since they can be permuted. -/
inductive Move : Option Slot → Document → Document → Prop where
  | permute {place : Option Slot} {entries entries' : List (String × Document)}
      (h : entries.Perm entries') : Move place (.mapping entries) (.mapping entries')
  | add {slot : Slot} {entries : List (String × Document)} {name : String}
      (h : Unknown slot (.mapping entries) name) (d : Document) :
      Move (some slot) (.mapping entries) (.mapping ((name, d) :: entries))
  | member {place inner : Option Slot} {name : String} {d d' : Document}
      {rest : List (String × Document)}
      (h : MemberAt place (.mapping ((name, d) :: rest)) name inner) (hd : Move inner d d') :
      Move place (.mapping ((name, d) :: rest)) (.mapping ((name, d') :: rest))
  | item {place inner : Option Slot} {before after : List Document} {d d' : Document}
      (h : ItemAt place (.sequence (before ++ d :: after)) before.length inner)
      (hd : Move inner d d') :
      Move place (.sequence (before ++ d :: after)) (.sequence (before ++ d' :: after))

section compound

variable {place : Option Slot} {d d' : Document}

/-- A move changes mappings and sequences only. -/
theorem Move.compound (h : Move place d d') :
    (∃ entries entries', d = .mapping entries ∧ d' = .mapping entries') ∨
      ∃ items items', d = .sequence items ∧ d' = .sequence items' := by
  cases h with
  | permute h => exact .inl ⟨_, _, rfl, rfl⟩
  | add h d => exact .inl ⟨_, _, rfl, rfl⟩
  | member h hd => exact .inl ⟨_, _, rfl, rfl⟩
  | item h hd => exact .inr ⟨_, _, rfl, rfl⟩

theorem readChoice_of_move {α : Type} (all : List α) (ofName? : String → Option α)
    (h : Move place d d') :
    readChoice all ofName? d = .error .shape ∧ readChoice all ofName? d' = .error .shape := by
  rcases h.compound with ⟨entries, entries', rfl, rfl⟩ | ⟨items, items', rfl, rfl⟩
  · exact ⟨rfl, rfl⟩
  · exact ⟨rfl, rfl⟩

theorem readKind_of_move (nested : Bool) (h : Move place d d') :
    readKind nested d = .error .shape ∧ readKind nested d' = .error .shape :=
  readChoice_of_move _ NodeKind.ofTypeName? h

theorem readLiteralValue_of_move (type : LiteralType) (h : Move place d d') :
    readLiteralValue type (some d) = .error .shape ∧
      readLiteralValue type (some d') = .error .shape := by
  rcases h.compound with ⟨entries, entries', rfl, rfl⟩ | ⟨items, items', rfl, rfl⟩
  · cases type <;> exact ⟨rfl, rfl⟩
  · cases type <;> exact ⟨rfl, rfl⟩

end compound

/-! ## Mappings -/

section mappings

variable {entries entries' : List (String × Document)}

/-- A node is read alike from two mappings of one type that have their fields in common. -/
theorem read_node_mapping {nested : Bool}
    (hkind : mappingKind nested entries = mappingKind nested entries')
    (hfields : ∀ kind, mappingKind nested entries = .ok kind →
      Alike SameFields (readFields (schema kind) [] entries)
        (readFields (schema kind) [] entries')) :
    Alike (· = ·) (read (.node nested) (.mapping entries))
      (read (.node nested) (.mapping entries')) := by
  rw [read, read, ← hkind]
  cases hread : mappingKind nested entries with
  | error fault => exact .error _ _
  | ok kind =>
      refine (hfields kind hread).bind fun record record' hsame => ?_
      rw [assemble_congr kind hsame]
      exact .of_eq rfl

theorem read_entry_mapping
    (hfields : Alike SameFields (readFields entrySchema [] entries)
      (readFields entrySchema [] entries')) :
    Alike (· = ·) (read .entry (.mapping entries)) (read .entry (.mapping entries')) := by
  rw [read, read]
  exact hfields.bind fun record record' hsame => .of_eq (assembleEntry_congr hsame)

theorem read_reference_mapping
    (hfields : Alike SameFields (readFields referenceSchema [] entries)
      (readFields referenceSchema [] entries')) :
    Alike (· = ·) (read .reference (.mapping entries)) (read .reference (.mapping entries')) := by
  rw [read, read]
  exact hfields.bind fun record record' hsame => .of_eq (assembleReference_congr hsame)

theorem read_optionalNode_mapping (entries : List (String × Document)) :
    read .optionalNode (.mapping entries) = read (.node true) (.mapping entries) := by
  rw [read, read]

theorem read_optionalNode_sequence (items : List Document) :
    read .optionalNode (.sequence items) = read (.node true) (.sequence items) := by
  cases items with
  | nil => rw [read, read] <;> nofun
  | cons type items => rw [read, read]

theorem lookup_schemaParts (fields : List Field) (name : String) :
    (schemaParts fields).lookup name
      = (fields.find? fun f => f.name == name).map fun f => some f.slot := by
  induction fields with
  | nil => rfl
  | cons f rest ih =>
      rw [schemaParts, List.map_cons, List.lookup_cons, List.find?_cons]
      by_cases h : f.name = name
      · have hname : (name == f.name) = true := beq_iff_eq.mpr h.symm
        have hfound : (f.name == name) = true := beq_iff_eq.mpr h
        rw [hname, hfound]
        rfl
      · have hname : (name == f.name) = false := beq_eq_false_iff_ne.mpr (Ne.symm h)
        have hfound : (f.name == name) = false := beq_eq_false_iff_ne.mpr h
        rw [hname, hfound]
        exact ih

theorem read_permuted (slot : Slot) (h : entries.Perm entries') :
    Alike (· = ·) (read slot (.mapping entries)) (read slot (.mapping entries')) := by
  have hnode (nested : Bool) : Alike (· = ·) (read (.node nested) (.mapping entries))
      (read (.node nested) (.mapping entries')) :=
    read_node_mapping (mappingKind_perm nested h) fun _ _ => readFields_perm h []
  cases slot with
  | node nested => exact hnode nested
  | optionalNode =>
      rw [read_optionalNode_mapping, read_optionalNode_mapping]
      exact hnode true
  | entry => exact read_entry_mapping (readFields_perm h [])
  | reference => exact read_reference_mapping (readFields_perm h [])
  | literal =>
      rw [read, read, readLiteral, readLiteral]
      refine Alike.map_of_eq (.of_eq ?_) _
      -- type and value are each given once, or there is no literal in either order
      rcases eq_or_two_le_of_perm (valuesOf_perm h "valueType") with
        htype | ⟨x, x', more, y, y', more', hx, hy⟩
      · rcases eq_or_two_le_of_perm (valuesOf_perm h "value") with
          hvalue | ⟨x, x', more, y, y', more', hx, hy⟩
        · rw [htype, hvalue]
        · rw [htype, hx, hy]
          rcases Document.valuesOf "valueType" entries' with _ | ⟨type, _ | _⟩ <;> rfl
      · rw [hx, hy]
  | text | texts | flag | nodes | entries =>
      rw [read, read] <;> first | exact .error _ _ | nofun

theorem find?_eq_none_of_lookup {fields : List Field} {name : String}
    (h : (schemaParts fields).lookup name = none) :
    (fields.find? fun f => f.name == name) = none := by
  rw [lookup_schemaParts, Option.map_eq_none_iff] at h
  exact h

theorem readFields_added {fields : List Field} {name : String}
    (h : (schemaParts fields).lookup name = none) (d : Document) :
    Alike SameFields (readFields fields [] entries)
      (readFields fields [] ((name, d) :: entries)) := by
  rw [readFields_unknown (find?_eq_none_of_lookup h)]
  exact readFields_congr (fun _ => rfl) entries

theorem read_node_added {nested : Bool} {name : String}
    (h : Unknown (.node nested) (.mapping entries) name) (d : Document) :
    Alike (· = ·) (read (.node nested) (.mapping entries))
      (read (.node nested) (.mapping ((name, d) :: entries))) := by
  rw [Unknown, parts?, kindOf] at h
  cases hkind : mappingKind nested entries with
  | error fault =>
      -- without a kind every name but the one of the type is unknown, so there is still none
      rw [hkind] at h
      refine read_node_mapping (mappingKind_cons_of_ne nested h d entries).symm ?_
      rw [hkind]
      exact nofun
  | ok kind =>
      rw [hkind] at h
      change (("type", none) :: schemaParts (schema kind)).lookup name = none at h
      rw [List.lookup_cons] at h
      have htype : name ≠ "type" := by
        rintro rfl
        exact nomatch h
      rw [beq_eq_false_iff_ne.mpr htype] at h
      refine read_node_mapping (mappingKind_cons_of_ne nested htype d entries).symm ?_
      intro kind' hkind'
      rw [hkind] at hkind'
      cases hkind'
      exact readFields_added h d

/-- A member of an unknown name changes nothing. -/
theorem read_added {slot : Slot} {name : String} (h : Unknown slot (.mapping entries) name)
    (d : Document) :
    Alike (· = ·) (read slot (.mapping entries)) (read slot (.mapping ((name, d) :: entries))) := by
  cases slot with
  | node nested => exact read_node_added h d
  | optionalNode =>
      rw [read_optionalNode_mapping, read_optionalNode_mapping]
      exact read_node_added h d
  | entry => exact read_entry_mapping (readFields_added h d)
  | reference => exact read_reference_mapping (readFields_added h d)
  | literal =>
      have htype : name ≠ "valueType" := by
        rintro rfl
        exact nomatch h
      have hvalue : name ≠ "value" := by
        rintro rfl
        exact nomatch h
      rw [read, read, readLiteral, readLiteral, valuesOf_cons_of_ne htype,
        valuesOf_cons_of_ne hvalue]
      exact .of_eq rfl
  | text | texts | flag | nodes | entries =>
      rw [read, read] <;> first | exact .error _ _ | nofun

/-! ### One member -/

/-- A type that is no name and no number is no type. -/
theorem mappingKind_of_move (nested : Bool) {place : Option Slot} {d d' : Document}
    (h : Move place d d') (rest : List (String × Document)) :
    mappingKind nested (("type", d) :: rest) = .error .shape ∧
      mappingKind nested (("type", d') :: rest) = .error .shape := by
  have hkind := readKind_of_move nested h
  rw [mappingKind, mappingKind, valuesOf_cons_self, valuesOf_cons_self]
  cases Document.valuesOf "type" rest with
  | nil => exact hkind
  | cons x more => exact ⟨rfl, rfl⟩

theorem Move.eq_empty_iff {d d' : Document} (h : Move none d d') :
    d = .mapping [] ↔ d' = .mapping [] := by
  cases h with
  | permute h =>
      rw [Document.mapping.injEq, Document.mapping.injEq]
      constructor
      · rintro rfl
        exact List.nil_perm.mp h
      · rintro rfl
        exact List.perm_nil.mp h
  | member h hd => exact iff_of_false nofun nofun
  | item h hd => exact iff_of_false nofun nofun

theorem readLiteralType_two (e e' : String × Document) (rest : List (String × Document)) :
    readLiteralType (.mapping (e :: e' :: rest)) = .error .shape := by
  rw [readLiteralType] <;> nofun

/-- The type of a literal may be the only key of a mapping, which a move leaves alone. -/
theorem readLiteralType_of_move {d d' : Document} (h : Move none d d') :
    readLiteralType d = readLiteralType d' := by
  cases h with
  | permute h =>
      rcases eq_or_two_le_of_perm h with heq | ⟨x, x', more, y, y', more', rfl, rfl⟩
      · rw [heq]
      · rw [readLiteralType_two, readLiteralType_two]
  | @member _ inner name d d' rest h hd =>
      obtain rfl : inner = none := h
      rcases rest with _ | ⟨e, rest⟩
      · by_cases hempty : d = .mapping []
        · rw [hempty, hd.eq_empty_iff.mp hempty]
        -- a mapping with a member, or a sequence, is no type, whatever is inside
        · have hempty' : d' ≠ .mapping [] := fun h => hempty (hd.eq_empty_iff.mpr h)
          rcases hd.compound with ⟨entries, entries', rfl, rfl⟩ | ⟨items, items', rfl, rfl⟩
          · rcases entries with _ | _
            · exact absurd rfl hempty
            · rcases entries' with _ | _
              · exact absurd rfl hempty'
              · rfl
          · rfl
      · rw [readLiteralType_two, readLiteralType_two]
  | item h hd => rfl

section members

variable {inner : Option Slot} {name : String} {d d' : Document}
  {rest : List (String × Document)}

theorem readFields_moved {fields : List Field}
    (hinner : inner = ((schemaParts fields).lookup name).join)
    (ih : ∀ slot, inner = some slot → Alike (· = ·) (read slot d) (read slot d')) :
    Alike SameFields (readFields fields [] ((name, d) :: rest))
      (readFields fields [] ((name, d') :: rest)) := by
  refine readFields_member fun f hf => ih f.slot ?_
  rw [hinner, lookup_schemaParts, hf]
  rfl

theorem read_node_member {nested : Bool}
    (h : MemberAt (some (.node nested)) (.mapping ((name, d) :: rest)) name inner)
    (hd : Move inner d d')
    (ih : ∀ slot, inner = some slot → Alike (· = ·) (read slot d) (read slot d')) :
    Alike (· = ·) (read (.node nested) (.mapping ((name, d) :: rest)))
      (read (.node nested) (.mapping ((name, d') :: rest))) := by
  by_cases htype : name = "type"
  · -- the type is a name or a number, and what is moved is neither
    subst htype
    obtain ⟨hkind, hkind'⟩ := mappingKind_of_move nested hd rest
    refine read_node_mapping (hkind.trans hkind'.symm) ?_
    rw [hkind]
    exact nofun
  · have hsame : mappingKind nested ((name, d) :: rest)
        = mappingKind nested ((name, d') :: rest) := by
      rw [mappingKind_cons_of_ne nested htype, mappingKind_cons_of_ne nested htype]
    refine read_node_mapping hsame fun kind hkind => readFields_moved ?_ ih
    rw [MemberAt, parts?, kindOf, hkind] at h
    change inner = ((("type", none) :: schemaParts (schema kind)).lookup name).join at h
    rw [List.lookup_cons, beq_eq_false_iff_ne.mpr htype] at h
    exact h

/-- A move leaves the type of a literal alone, and a value that anything can be moved in is refused
before and after. -/
theorem readLiteral_member
    (h : MemberAt (some .literal) (.mapping ((name, d) :: rest)) name inner)
    (hd : Move inner d d') :
    Alike (· = ·) (readLiteral (.mapping ((name, d) :: rest)))
      (readLiteral (.mapping ((name, d') :: rest))) := by
  rw [readLiteral, readLiteral]
  by_cases htype : name = "valueType"
  · subst htype
    obtain rfl : inner = none := h
    rw [valuesOf_cons_self, valuesOf_cons_self, valuesOf_cons_of_ne (by decide),
      valuesOf_cons_of_ne (by decide)]
    have htypes := readLiteralType_of_move hd
    rcases Document.valuesOf "valueType" rest with _ | _
    · rcases Document.valuesOf "value" rest with _ | ⟨value, _ | _⟩
      · exact (Alike.of_eq htypes).bind fun type type' heq => .of_eq (heq ▸ rfl)
      · exact (Alike.of_eq htypes).bind fun type type' heq => .of_eq (heq ▸ rfl)
      · exact .error _ _
    · exact .error _ _
  · rw [valuesOf_cons_of_ne htype, valuesOf_cons_of_ne htype]
    by_cases hvalue : name = "value"
    · subst hvalue
      rw [valuesOf_cons_self, valuesOf_cons_self]
      rcases Document.valuesOf "valueType" rest with _ | ⟨type, _ | _⟩
      · exact .error _ _
      · rcases Document.valuesOf "value" rest with _ | _
        · refine (Alike.of_eq rfl).bind fun type type' heq => ?_
          subst heq
          obtain ⟨hleft, hright⟩ := readLiteralValue_of_move type hd
          rw [hleft, hright]
          exact .error _ _
        · exact .error _ _
      · exact .error _ _
    · rw [valuesOf_cons_of_ne hvalue, valuesOf_cons_of_ne hvalue]
      exact .of_eq rfl

/-- A change inside a member is a change of what is read from it, or of nothing that is read. -/
theorem read_member {slot : Slot}
    (h : MemberAt (some slot) (.mapping ((name, d) :: rest)) name inner) (hd : Move inner d d')
    (ih : ∀ slot, inner = some slot → Alike (· = ·) (read slot d) (read slot d')) :
    Alike (· = ·) (read slot (.mapping ((name, d) :: rest)))
      (read slot (.mapping ((name, d') :: rest))) := by
  cases slot with
  | node nested => exact read_node_member h hd ih
  | optionalNode =>
      rw [read_optionalNode_mapping, read_optionalNode_mapping]
      exact read_node_member h hd ih
  | entry => exact read_entry_mapping (readFields_moved h ih)
  | reference => exact read_reference_mapping (readFields_moved h ih)
  | literal =>
      rw [read, read]
      exact (readLiteral_member h hd).map_of_eq _
  | text | texts | flag | nodes | entries =>
      rw [read, read] <;> first | exact .error _ _ | nofun

end members

end mappings

/-! ## Sequences -/

section sequences

variable {before after : List Document} {d d' : Document}

theorem getElem?_schemaParts (fields : List Field) (i : Nat) :
    ((schemaParts fields)[i]?).bind Prod.snd = fields[i]?.map Field.slot := by
  rw [schemaParts, List.getElem?_map]
  cases fields[i]? with
  | none => rfl
  | some f => rfl

theorem readTexts_of_move {place : Option Slot} (before after : List Document)
    (hd : Move place d d') :
    readTexts (before ++ d :: after) = .error .shape ∧
      readTexts (before ++ d' :: after) = .error .shape := by
  have hnone {d : Document} (h : d.string? = none) :
      readTexts (before ++ d :: after) = .error .shape := by
    have hall : (before ++ d :: after).mapM Document.string? = none := by
      rw [List.mapM_append, List.mapM_cons, h]
      cases before.mapM Document.string? <;> rfl
    rw [readTexts, hall]
  rcases hd.compound with ⟨entries, entries', rfl, rfl⟩ | ⟨items, items', rfl, rfl⟩
  · exact ⟨hnone rfl, hnone rfl⟩
  · exact ⟨hnone rfl, hnone rfl⟩

/-- A literal is no mapping and no sequence, and neither is its type given in front of it. -/
theorem readLiteral_item {place : Option Slot} (hd : Move place d d') :
    Alike (· = ·) (readLiteral (.sequence (before ++ d :: after)))
      (readLiteral (.sequence (before ++ d' :: after))) := by
  rcases before with _ | ⟨type, _ | ⟨value, before⟩⟩
  · obtain ⟨hleft, hright⟩ := readChoice_of_move LiteralType.all LiteralType.ofToken? hd
    rcases after with _ | ⟨value, _ | _⟩
    · exact .error _ _
    · rw [List.nil_append, List.nil_append, readLiteral, readLiteral, hleft, hright]
      exact .error _ _
    · exact .error _ _
  -- a literal of two items has its value second
  · rcases after with _ | _
    · rw [List.singleton_append, List.singleton_append, readLiteral, readLiteral]
      refine (Alike.of_eq rfl).bind fun type type' heq => ?_
      subst heq
      obtain ⟨hleft, hright⟩ := readLiteralValue_of_move type hd
      rw [hleft, hright]
      exact .error _ _
    · exact .error _ _
  · rcases before with _ | _ <;> exact .error _ _

theorem readItems_moved {fields : List Field} {inner : Option Slot}
    (hinner : inner = ((schemaParts fields)[before.length]?).bind Prod.snd)
    (ih : ∀ slot, inner = some slot → Alike (· = ·) (read slot d) (read slot d')) :
    Alike (· = ·) (readItems fields (before ++ d :: after))
      (readItems fields (before ++ d' :: after)) := by
  refine readItems_item fun f hf => ih f.slot ?_
  rw [hinner, getElem?_schemaParts, hf]
  rfl

theorem read_node_item {nested : Bool} {inner : Option Slot}
    (h : ItemAt (some (.node nested)) (.sequence (before ++ d :: after)) before.length inner)
    (hd : Move inner d d')
    (ih : ∀ slot, inner = some slot → Alike (· = ·) (read slot d) (read slot d')) :
    Alike (· = ·) (read (.node nested) (.sequence (before ++ d :: after)))
      (read (.node nested) (.sequence (before ++ d' :: after))) := by
  rcases before with _ | ⟨type, before⟩
  · -- the first item is the type, and what is moved is none
    obtain ⟨hleft, hright⟩ := readKind_of_move nested hd
    rw [List.nil_append, List.nil_append, read, read, hleft, hright]
    exact .error _ _
  · rw [List.cons_append, List.cons_append, read, read]
    rw [ItemAt, parts?, List.cons_append, kindOf] at h
    cases hkind : readKind nested type with
    | error fault => exact .error _ _
    | ok kind =>
        rw [hkind] at h
        refine (readItems_moved h ih).bind fun record record' heq => ?_
        subst heq
        exact .of_eq rfl

/-- In a list every item is read into the same slot. -/
theorem inner_of_list {inner : Option Slot} (slot : Slot)
    (h : inner
      = (((before ++ d :: after).map fun _ => ("", some slot))[before.length]?).bind Prod.snd) :
    inner = some slot := by
  rw [h, List.getElem?_map, List.getElem?_append_right (Nat.le_refl _), Nat.sub_self]
  rfl

/-- A change inside an item is a change of what is read from it, or of nothing that is read. -/
theorem read_item {slot : Slot} {inner : Option Slot}
    (h : ItemAt (some slot) (.sequence (before ++ d :: after)) before.length inner)
    (hd : Move inner d d')
    (ih : ∀ slot, inner = some slot → Alike (· = ·) (read slot d) (read slot d')) :
    Alike (· = ·) (read slot (.sequence (before ++ d :: after)))
      (read slot (.sequence (before ++ d' :: after))) := by
  cases slot with
  | node nested => exact read_node_item h hd ih
  | optionalNode =>
      rw [read_optionalNode_sequence, read_optionalNode_sequence]
      exact read_node_item h hd ih
  | entry =>
      rw [read, read]
      refine (readItems_moved h ih).bind fun record record' heq => ?_
      subst heq
      exact .of_eq rfl
  | reference =>
      rw [read, read]
      refine (readItems_moved h ih).bind fun record record' heq => ?_
      subst heq
      exact .of_eq rfl
  | nodes =>
      rw [read, read]
      exact (readAll_item (ih _ (inner_of_list (.node true) h))).map_of_eq _
  | entries =>
      rw [read, read]
      exact (readAll_item (ih _ (inner_of_list .entry h))).map_of_eq _
  | texts =>
      obtain ⟨hleft, hright⟩ := readTexts_of_move before after hd
      rw [read, read, hleft, hright]
      exact .error _ _
  | literal =>
      rw [read, read]
      exact (readLiteral_item hd).map_of_eq _
  | text | flag => rw [read, read] <;> first | exact .error _ _ | nofun

end sequences

/-! ## Texts -/

/-- One change keeps what is read. -/
theorem Move.alike {place : Option Slot} {d d' : Document} (h : Move place d d') (slot : Slot)
    (hplace : place = some slot) : Alike (· = ·) (read slot d) (read slot d') := by
  -- by induction on where the change is made
  induction h generalizing slot with
  | permute h => exact read_permuted slot h
  | add h d =>
      cases hplace
      exact read_added h d
  | member h hd ih =>
      subst hplace
      exact read_member h hd fun slot hslot => ih slot hslot
  | item h hd ih =>
      subst hplace
      exact read_item h hd fun slot hslot => ih slot hslot

/-- Documents of the same tree: one comes from the other by changes made, or made undone. -/
def SameTree : Document → Document → Prop := Relation.EqvGen (Move (some (.node false)))

theorem SameTree.alike {d d' : Document} (h : SameTree d d') :
    Alike (· = ·) (read (.node false) d) (read (.node false) d') := by
  induction h with
  | rel d d' h => exact h.alike _ rfl
  | refl d => exact .of_eq rfl
  | symm d d' _ ih => exact ih.symm
  | trans d d' d'' _ _ ih ih' => exact ih.trans ih'

theorem SameTree.ofDocument_eq_ok_iff {d d' : Document} (h : SameTree d d') (tree : Node) :
    ofDocument d = .ok tree ↔ ofDocument d' = .ok tree := by
  have halike : Alike (· = ·) (ofDocument d) (ofDocument d') :=
    h.alike.bind fun filled filled' heq => .of_eq (heq ▸ rfl)
  exact halike.eq_ok_iff tree

/-- A JSON text holds the tree of the document that it holds. -/
theorem ofText_json_eq_ok_iff {text : String} {d : Document} (h : Json.parse text = some d)
    (tree : Node) :
    ofText (.ofExtension (some "json")) text = .ok tree ↔ ofDocument d = .ok tree := by
  obtain ⟨⟨value, rest⟩, hfront, honly⟩ := Option.bind_eq_some_iff.mp h
  rw [Json.onlyValue?, Option.ite_none_right_eq_some] at honly
  obtain ⟨hrest, hvalue⟩ := honly
  cases hvalue
  show (ofJson text).mapError _ = _ ↔ _
  rw [ofJson]
  -- the tree is made of the value in front, and nothing but blanks comes behind it
  simp only [hfront]
  cases ofDocument value with
  | error fault =>
      constructor
      · intro h
        cases h
      · intro h
        cases h
  | ok node =>
      dsimp only at hrest ⊢
      rw [if_pos hrest]
      constructor
      · intro h
        exact congrArg Except.ok (Except.ok.inj h)
      · intro h
        exact congrArg Except.ok (Except.ok.inj h)

/-- Two JSON texts hold the same tree, or neither of them holds one, if their data differ only in
the order of members and in members of unknown names. -/
theorem ofText_json_rearranged {text text' : String} {d d' : Document}
    (h : SameTree d d') (htext : Json.parse text = some d)
    (htext' : Json.parse text' = some d') (tree : Node) :
    ofText (.ofExtension (some "json")) text = .ok tree ↔
      ofText (.ofExtension (some "json")) text' = .ok tree := by
  rw [ofText_json_eq_ok_iff htext, ofText_json_eq_ok_iff htext']
  exact h.ofDocument_eq_ok_iff tree

/-- The type of a node and of a literal may stand behind all else, and a note in front of it. -/
theorem ofText_json_rearranged_constant :
    let typed := ("valueType", Document.string "boolean")
    let value := ("value", Document.bool true)
    let d := Document.mapping [("type", .string "ConstantNode"), ("value", .mapping [typed, value])]
    let d' := Document.mapping [("note", .null), ("value", .mapping [value, typed]),
      ("type", .string "ConstantNode")]
    SameTree d d' ∧ Json.parse (Json.write d) = some d ∧ Json.parse (Json.write d') = some d' ∧
      ∀ tree, ofText (.ofExtension (some "json")) (Json.write d) = .ok tree ↔
        ofText (.ofExtension (some "json")) (Json.write d') = .ok tree := by
  intro typed value d d'
  have hmember : MemberAt (some (.node false))
      (.mapping [("value", .mapping [typed, value]), ("type", .string "ConstantNode")]) "value"
      (some .literal) := rfl
  have hunknown : Unknown (.node false)
      (.mapping [("value", .mapping [value, typed]), ("type", .string "ConstantNode")])
      "note" := rfl
  -- the type goes behind the value, the two members of the value change places, the note is added
  have hsame : SameTree d d' :=
    .trans _ _ _ (.rel _ _ (.permute (.swap _ _ [])))
      (.trans _ _ _ (.rel _ _ (.member hmember (.permute (.swap _ _ []))))
        (.rel _ _ (.add hunknown .null)))
  have hinner (entries : List (String × Document)) (h : entries = [typed, value] ∨
      entries = [value, typed]) : Faithful (.mapping entries) := by
    rcases h with rfl | rfl
    · exact .mapping (by simp [typed, value, faithful_string, faithful_bool])
    · exact .mapping (by simp [typed, value, faithful_string, faithful_bool])
  have hd : Faithful d := .mapping (by simp [faithful_string, hinner])
  have hnull : Faithful .null := .scalar rfl rfl
  have hd' : Faithful d' := .mapping (by simp [faithful_string, hinner, hnull])
  have hparse := Json.parse_write hd (by decide)
  have hparse' := Json.parse_write hd' (by decide)
  exact ⟨hsame, hparse, hparse', ofText_json_rearranged hsame hparse hparse'⟩

end Formula.Node
