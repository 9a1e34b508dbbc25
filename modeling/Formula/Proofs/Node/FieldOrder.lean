import Formula.Node.Document
import Formula.Proofs.Outcome
import Mathlib.Data.List.Perm.Basic

set_option autoImplicit false

/-! # Fields in any order

The fields of a structure are looked up by name when all of them have been read, so the order in
which the members of a mapping stand does not matter, nor do members that no field is named like.
Two records that hold the same under each name make the same node.
-/

namespace Formula.Node

open Outcome

/-! ## Members of a name -/

section values

variable {entries entries' : List (String × Document)}

/-- A list of at most one item is not changed by permuting it. -/
theorem eq_or_two_le_of_perm {α : Type} {xs ys : List α} (h : xs.Perm ys) :
    xs = ys ∨ (∃ x x' more y y' more', xs = x :: x' :: more ∧ ys = y :: y' :: more') := by
  rcases xs with _ | ⟨x, _ | ⟨x', more⟩⟩
  · exact .inl (List.nil_perm.mp h).symm
  · exact .inl (List.singleton_perm.mp h)
  · have hlength := h.length_eq
    rcases ys with _ | ⟨y, _ | ⟨y', more'⟩⟩
    · exact nomatch hlength
    · exact nomatch hlength
    · exact .inr ⟨x, x', more, y, y', more', rfl, rfl⟩

theorem valuesOf_perm (h : entries.Perm entries') (key : String) :
    (Document.valuesOf key entries).Perm (Document.valuesOf key entries') :=
  (h.filter _).map _

theorem valuesOf_cons_self (key : String) (d : Document) (rest : List (String × Document)) :
    Document.valuesOf key ((key, d) :: rest) = d :: Document.valuesOf key rest := by
  rw [Document.valuesOf, List.filter_cons_of_pos (by exact beq_self_eq_true key), List.map_cons]
  rfl

theorem valuesOf_cons_of_ne {key name : String} (h : name ≠ key) (d : Document)
    (rest : List (String × Document)) :
    Document.valuesOf key ((name, d) :: rest) = Document.valuesOf key rest := by
  rw [Document.valuesOf, List.filter_cons_of_neg (by simpa using h)]
  rfl

theorem mappingKind_perm (nested : Bool) (h : entries.Perm entries') :
    mappingKind nested entries = mappingKind nested entries' := by
  rw [mappingKind, mappingKind]
  rcases eq_or_two_le_of_perm (valuesOf_perm h "type") with
    heq | ⟨x, x', more, y, y', more', hx, hy⟩
  · rw [heq]
  · rw [hx, hy]

theorem mappingKind_cons_of_ne (nested : Bool) {name : String} (h : name ≠ "type") (d : Document)
    (rest : List (String × Document)) :
    mappingKind nested ((name, d) :: rest) = mappingKind nested rest := by
  rw [mappingKind, valuesOf_cons_of_ne h, mappingKind]

end values

/-! ## Fields -/

/-- Two records hold the same under each name. -/
def SameFields (record record' : Record) : Prop :=
  ∀ name, record.lookup name = record'.lookup name

section fields

variable {record record' : Record} {fields : List Field}

theorem SameFields.append (h : SameFields record record') (name : String) (filled : Filled) :
    SameFields (record ++ [(name, filled)]) (record' ++ [(name, filled)]) := by
  intro other
  rw [List.lookup_append, List.lookup_append, h other]

/-- The order of two fields of different names does not matter. -/
theorem SameFields.swap (h : SameFields record record') {name name' : String} (hne : name ≠ name')
    (filled filled' : Filled) :
    SameFields (record ++ [(name, filled)] ++ [(name', filled')])
      (record' ++ [(name', filled')] ++ [(name, filled)]) := by
  intro other
  simp only [List.lookup_append, h other, List.lookup_cons, List.lookup_nil]
  by_cases hname : other = name
  · have hne' : (other == name') = false := beq_eq_false_iff_ne.mpr (hname ▸ hne)
    rw [hne', Option.or_none, Option.or_none]
  · have hname' : (other == name) = false := beq_eq_false_iff_ne.mpr hname
    rw [hname', Option.or_none, Option.or_none]

theorem checkComplete_congr (h : SameFields record record') :
    checkComplete fields record = checkComplete fields record' := by
  simp only [checkComplete, h _]

theorem readFields_unknown {name : String} (h : (fields.find? fun f => f.name == name) = none)
    (d : Document) (rest : List (String × Document)) :
    readFields fields record ((name, d) :: rest) = readFields fields record rest := by
  rw [readFields, h]

theorem readFields_known {name : String} {f : Field}
    (h : (fields.find? fun f => f.name == name) = some f) (d : Document)
    (rest : List (String × Document)) :
    readFields fields record ((name, d) :: rest)
      = if (record.lookup name).isSome then .error .shape
        else read f.slot d >>= fun filled =>
          readFields fields (record ++ [(name, filled)]) rest := by
  rw [readFields, h]

/-- What has been read so far matters only as to what is under each name. -/
theorem readFields_congr (h : SameFields record record') (entries : List (String × Document)) :
    Alike SameFields (readFields fields record entries) (readFields fields record' entries) := by
  induction entries generalizing record record' with
  | nil =>
      rw [readFields, readFields, checkComplete_congr h]
      cases checkComplete fields record' with
      | error fault => exact .error fault fault
      | ok _ => exact .ok h
  | cons e rest ih =>
      obtain ⟨name, d⟩ := e
      cases hfind : fields.find? fun f => f.name == name with
      | none =>
          rw [readFields_unknown hfind, readFields_unknown hfind]
          exact ih h
      | some f =>
          -- a name that was read before is refused on both sides, a new one is filled alike
          rw [readFields_known hfind, readFields_known hfind, h name]
          split
          · exact .error _ _
          · refine (Alike.of_eq rfl).bind fun filled filled' heq => ?_
            subst heq
            exact ih (h.append name filled)

theorem lookup_append_eq_none {name other : String} {filled : Filled} :
    (record ++ [(name, filled)]).lookup other = none
      ↔ record.lookup other = none ∧ other ≠ name := by
  rw [List.lookup_append, Option.or_eq_none_iff, List.lookup_cons]
  by_cases h : other = name
  · simp [h]
  · have hne : (other == name) = false := beq_eq_false_iff_ne.mpr h
    simp [h, hne]

/-- A field is read if it has not been given before. -/
theorem readFields_known_eq_ok {name : String} {f : Field}
    (h : (fields.find? fun f => f.name == name) = some f) {d : Document}
    {rest : List (String × Document)} {out : Record} :
    readFields fields record ((name, d) :: rest) = .ok out ↔ record.lookup name = none ∧
      ∃ filled, read f.slot d = .ok filled ∧
        readFields fields (record ++ [(name, filled)]) rest = .ok out := by
  rw [readFields_known h]
  cases hlookup : record.lookup name with
  | some filled => exact iff_of_false nofun fun h => nomatch h.1
  | none =>
      rw [Option.isSome_none, if_neg nofun, bind_eq_ok]
      exact ⟨fun h => ⟨rfl, h⟩, And.right⟩

/-- Two members that stand next to each other can be read in either order. -/
theorem readFields_swap (e e' : String × Document) (rest : List (String × Document))
    {out : Record} (h : readFields fields record (e :: e' :: rest) = .ok out) :
    ∃ out', readFields fields record (e' :: e :: rest) = .ok out' ∧ SameFields out out' := by
  obtain ⟨name, d⟩ := e
  obtain ⟨name', d'⟩ := e'
  cases hfind : fields.find? fun f => f.name == name with
  | none =>
      -- the first member is not looked for, wherever it stands
      refine ⟨out, ?_, fun _ => rfl⟩
      rw [readFields_unknown hfind] at h
      cases hfind' : fields.find? fun f => f.name == name' with
      | none =>
          rw [readFields_unknown hfind'] at h ⊢
          rw [readFields_unknown hfind]
          exact h
      | some f' =>
          rw [readFields_known hfind'] at h ⊢
          simp only [readFields_unknown hfind]
          exact h
  | some f =>
      obtain ⟨hnew, filled, hread, h⟩ := (readFields_known_eq_ok hfind).mp h
      cases hfind' : fields.find? fun f => f.name == name' with
      | none =>
          rw [readFields_unknown hfind'] at h ⊢
          exact ⟨out, (readFields_known_eq_ok hfind).mpr ⟨hnew, filled, hread, h⟩, fun _ => rfl⟩
      | some f' =>
          obtain ⟨hnew', filled', hread', h⟩ := (readFields_known_eq_ok hfind').mp h
          obtain ⟨hnew', hne⟩ := lookup_append_eq_none.mp hnew'
          have hsame : SameFields (record ++ [(name, filled)] ++ [(name', filled')])
              (record ++ [(name', filled')] ++ [(name, filled)]) :=
            SameFields.swap (fun _ => rfl) hne.symm filled filled'
          obtain ⟨out', hout', hsame'⟩ := (readFields_congr hsame rest).exists_ok h
          have hsecond := (readFields_known_eq_ok hfind).mpr
            ⟨lookup_append_eq_none.mpr ⟨hnew, hne.symm⟩, filled, hread, hout'⟩
          have hfirst := (readFields_known_eq_ok hfind').mpr ⟨hnew', filled', hread', hsecond⟩
          exact ⟨out', hfirst, hsame'⟩

theorem readFields_perm {entries entries' : List (String × Document)} (h : entries.Perm entries')
    (record : Record) :
    Alike SameFields (readFields fields record entries) (readFields fields record entries') := by
  induction h generalizing record with
  | nil => exact readFields_congr (fun _ => rfl) []
  | cons e _ ih =>
      obtain ⟨name, d⟩ := e
      cases hfind : fields.find? fun f => f.name == name with
      | none =>
          rw [readFields_unknown hfind, readFields_unknown hfind]
          exact ih record
      | some f =>
          rw [readFields_known hfind, readFields_known hfind]
          split
          · exact .error _ _
          · refine (Alike.of_eq rfl).bind fun filled filled' heq => ?_
            subst heq
            exact ih _
  | swap e e' rest =>
      -- exchanging two members and exchanging them back give the same fields
      refine .of_exists_ok (fun out hout => readFields_swap e' e rest hout) fun out hout => ?_
      obtain ⟨out', hout', -⟩ := readFields_swap e e' rest hout
      exact ⟨out', hout'⟩
  | trans _ _ ih ih' =>
      exact (ih record).trans_of (fun h h' name => (h name).trans (h' name)) (ih' record)

/-- A member is only looked at for its field. -/
theorem readFields_member {name : String} {d d' : Document} {rest : List (String × Document)}
    (h : ∀ f, (fields.find? fun f => f.name == name) = some f →
      Alike (· = ·) (read f.slot d) (read f.slot d')) :
    Alike SameFields (readFields fields record ((name, d) :: rest))
      (readFields fields record ((name, d') :: rest)) := by
  cases hfind : fields.find? fun f => f.name == name with
  | none =>
      rw [readFields_unknown hfind, readFields_unknown hfind]
      exact readFields_congr (fun _ => rfl) rest
  | some f =>
      rw [readFields_known hfind, readFields_known hfind]
      split
      · exact .error _ _
      · refine (h f hfind).bind fun filled filled' heq => ?_
        subst heq
        exact readFields_congr (fun _ => rfl) rest

theorem readItems_item {before after : List Document} {d d' : Document}
    (h : ∀ f, fields[before.length]? = some f → Alike (· = ·) (read f.slot d) (read f.slot d')) :
    Alike (· = ·) (readItems fields (before ++ d :: after))
      (readItems fields (before ++ d' :: after)) := by
  induction before generalizing fields with
  | nil =>
      rcases fields with _ | ⟨f, fields⟩
      · rw [List.nil_append, List.nil_append, readItems, readItems]
        exact .error _ _
      · rw [List.nil_append, List.nil_append, readItems, readItems]
        refine (h f rfl).bind fun filled filled' heq => ?_
        subst heq
        exact .of_eq rfl
  | cons first before ih =>
      rcases fields with _ | ⟨f, fields⟩
      · rw [List.cons_append, List.cons_append, readItems, readItems]
        exact .error _ _
      · rw [List.cons_append, List.cons_append, readItems, readItems]
        refine (Alike.of_eq rfl).bind fun filled filled' heq => ?_
        subst heq
        -- the item in front is read alike, and the place behind it is one less for the rest
        exact (ih h).map_of_eq _

theorem readAll_item {slot : Slot} {before after : List Document} {d d' : Document}
    (h : Alike (· = ·) (read slot d) (read slot d')) :
    Alike (· = ·) (readAll slot (before ++ d :: after)) (readAll slot (before ++ d' :: after)) := by
  induction before with
  | nil =>
      rw [List.nil_append, List.nil_append, readAll, readAll]
      refine h.bind fun filled filled' heq => ?_
      subst heq
      exact .of_eq rfl
  | cons first before ih =>
      rw [List.cons_append, List.cons_append, readAll, readAll]
      refine (Alike.of_eq rfl).bind fun filled filled' heq => ?_
      subst heq
      exact ih.map_of_eq _

theorem assemble_congr (kind : NodeKind) (h : SameFields record record') :
    assemble kind record = assemble kind record' := by
  cases kind <;> simp only [assemble, h _]

theorem assembleEntry_congr (h : SameFields record record') :
    assembleEntry record = assembleEntry record' := by
  simp only [assembleEntry, h _]

theorem assembleReference_congr (h : SameFields record record') :
    assembleReference record = assembleReference record' := by
  simp only [assembleReference, h _]

end fields

end Formula.Node
