import Formula.Binding
import Formula.Proofs.Format.Json.Value
import Formula.Proofs.Matrix.Nested
import Formula.Proofs.Outcome
import Formula.Proofs.Text.Trim

set_option autoImplicit false

/-! # Values bound to their own texts

The text of a value, bound to a name, gives that value again: null, a truth value, a number, or a
dense matrix of real numbers. The text of a matrix puts the texts of its elements in brackets, level
by level; it is read as an array of arrays of the same form, whose numbers make nested sequences,
and these have the shape and the elements of the matrix. What is assumed is that the numbers at hand
are read back from their own texts.
-/

namespace Formula

open Json (Reads ReadsItems Blank)
open Outcome

/-! ## Numbers -/

/-- A finite number is shown as a JSON number, which is read as the same double. -/
def ShownExactly (x : Float) : Prop :=
  x.isFinite = true ∧ ∃ d, Json.number? (Decimal.text x).toList = some (d, []) ∧
    Binding.nested d = .ok (.scalar (.real x))

namespace Binding

/-- A number comes from an integer or from a real number. -/
theorem cases_of_nested {d : Document} {x : Float} (h : nested d = .ok (.scalar (.real x))) :
    (∃ n, d = .integer n ∧ Binary64.ofInt n = x) ∨ d = .real x := by
  cases d with
  | integer n =>
      rw [nested] at h
      cases h
      exact .inl ⟨n, rfl, rfl⟩
  | real y =>
      rw [nested] at h
      cases h
      exact .inr rfl
  | sequence items =>
      rw [nested] at h
      obtain ⟨nesteds, -, hseq⟩ := map_eq_ok.mp h
      exact nomatch hseq
  | null | bool _ | string _ | mapping _ => simp [nested] at h

theorem nesting_of_nested {d : Document} {x : Float} (h : nested d = .ok (.scalar (.real x))) :
    d.nesting = 0 := by
  rcases cases_of_nested h with ⟨n, rfl, -⟩ | rfl
  · rw [Document.nesting] <;> exact nofun
  · rw [Document.nesting] <;> exact nofun

theorem isFinite_of_nested {d : Document} {x : Float} (hfinite : x.isFinite = true)
    (h : nested d = .ok (.scalar (.real x))) : d.all Json.isFinite = true := by
  rcases cases_of_nested h with ⟨n, rfl, -⟩ | rfl
  · rw [Document.all] <;> first | rfl | simp
  · rw [Document.all] <;> first | exact hfinite | simp

theorem valueOf_of_nested (name : String) {d : Document} {x : Float}
    (h : nested d = .ok (.scalar (.real x))) : valueOf name d = .ok (.number x) := by
  rcases cases_of_nested h with ⟨n, rfl, rfl⟩ | rfl
  · rfl
  · rfl

end Binding

/-! ## Arrays of numbers -/

/-- Documents in the brackets of a shape. -/
def Document.array : List Nat → List Document → Document
  | [], items => items.headD .null
  | [_], items => .sequence items
  | n :: m :: rest, items =>
      .sequence ((Dense.pieces (Word.product (m :: rest)) n items).map (array (m :: rest)))

/-- A text is read as a document in any place of an array. -/
theorem readsItems_intercalate {items : List Document} {texts : List (List Char)}
    (h : List.Forall₂ Reads items texts) (hne : items ≠ []) {before : List Char}
    (hbefore : Blank before) : ReadsItems items (before ++ [',', ' '].intercalate texts) := by
  induction h generalizing before with
  | nil => exact absurd rfl hne
  | @cons d cs items texts hd hrest ih =>
      -- the last item is followed by nothing, any other one by a comma and a blank
      cases hrest with
      | nil =>
          have hlast := hd.last_item hbefore Json.blank_nil
          rw [List.append_nil] at hlast
          rwa [List.intercalate_singleton]
      | cons hnext hmore =>
          have hblank : Blank [' '] := by
            intro c hc
            rw [List.mem_singleton.mp hc]
            rfl
          have hitems := hd.cons_item hbefore Json.blank_nil (ih (List.cons_ne_nil _ _) hblank)
          rw [List.intercalate_cons_cons, List.append_assoc]
          exact hitems

theorem reads_intercalate {items : List Document} {texts : List (List Char)}
    (h : List.Forall₂ Reads items texts) :
    Reads (.sequence items) ('[' :: ([',', ' '].intercalate texts ++ [']'])) := by
  cases h with
  | nil => exact Json.reads_sequence_nil
  | cons hd hrest =>
      exact (readsItems_intercalate (.cons hd hrest) (List.cons_ne_nil _ _) Json.blank_nil).reads

/-- The texts of elements in brackets are read as the documents of the elements in brackets. -/
theorem reads_bracketed (shape : List Nat) (hrank : shape ≠ []) {items : List Document}
    {texts : List String} (h : List.Forall₂ (fun d text => Reads d text.toList) items texts) :
    Reads (.array shape items) (Dense.bracketed shape texts).toList := by
  match shape with
  | [] => exact absurd rfl hrank
  | [n] =>
      rw [Document.array, Dense.bracketed, String.toList_append, String.toList_append,
        String.toList_intercalate]
      exact reads_intercalate (List.forall₂_map_right_iff.mpr h)
  | n :: m :: rest =>
      -- each row is a text in brackets of the shape without its first axis
      have hpieces := Dense.forall₂_pieces n (Word.product (m :: rest)) h
      have hrows : List.Forall₂ Reads
          ((Dense.pieces (Word.product (m :: rest)) n items).map (Document.array (m :: rest)))
          (((Dense.pieces (Word.product (m :: rest)) n texts).map
            (Dense.bracketed (m :: rest))).map String.toList) := by
        rw [List.map_map, List.forall₂_map_left_iff, List.forall₂_map_right_iff]
        exact hpieces.imp fun items texts h => reads_bracketed (m :: rest) nofun h
      rw [Document.array, Dense.bracketed]
      simp only [String.toList_append, String.toList_intercalate]
      exact reads_intercalate hrows

theorem exists_array_eq (shape : List Nat) (hrank : shape ≠ []) (items : List Document) :
    ∃ documents, Document.array shape items = .sequence documents := by
  match shape with
  | [] => exact absurd rfl hrank
  | [n] => exact ⟨_, rfl⟩
  | n :: m :: rest => exact ⟨_, rfl⟩

theorem exists_nested_eq (shape : List Nat) (hrank : shape ≠ []) (xs : List Scalar) :
    ∃ parts, Dense.nested shape xs = .seq parts := by
  match shape with
  | [] => exact absurd rfl hrank
  | [n] => exact ⟨_, rfl⟩
  | n :: m :: rest => exact ⟨_, rfl⟩

theorem nestingItems_le {items : List Document} {levels : Nat}
    (h : ∀ d ∈ items, d.nesting ≤ levels) : Document.nestingItems items ≤ levels := by
  induction items with
  | nil => exact Nat.zero_le _
  | cons d rest ih =>
      obtain ⟨hd, hrest⟩ := List.forall_mem_cons.mp h
      rw [Document.nestingItems]
      exact Nat.max_le.mpr ⟨hd, ih hrest⟩

/-- An array of scalars has as many levels as its shape has axes. -/
theorem nesting_array (shape : List Nat) (hrank : shape ≠ []) {items : List Document}
    (h : ∀ d ∈ items, d.nesting = 0) : (Document.array shape items).nesting ≤ shape.length := by
  match shape with
  | [] => exact absurd rfl hrank
  | [n] =>
      rw [Document.array, Document.nesting]
      have hitems : Document.nestingItems items ≤ 0 :=
        nestingItems_le fun d hd => Nat.le_of_eq (h d hd)
      rw [List.length_singleton]
      omega
  | n :: m :: rest =>
      rw [Document.array, Document.nesting, List.length_cons, Nat.add_comm]
      refine Nat.succ_le_succ (nestingItems_le fun d hd => ?_)
      obtain ⟨piece, hpiece, rfl⟩ := List.mem_map.mp hd
      exact nesting_array (m :: rest) nofun fun d hd =>
        h d (Dense.mem_of_mem_pieces piece hpiece d hd)

theorem all_array (shape : List Nat) (hrank : shape ≠ []) {items : List Document}
    (h : ∀ d ∈ items, d.all Json.isFinite = true) :
    (Document.array shape items).all Json.isFinite = true := by
  match shape with
  | [] => exact absurd rfl hrank
  | [n] =>
      rw [Document.array, Document.all]
      exact Json.allItems_of_forall h
  | n :: m :: rest =>
      rw [Document.array, Document.all]
      refine Json.allItems_of_forall fun d hd => ?_
      obtain ⟨piece, hpiece, rfl⟩ := List.mem_map.mp hd
      exact all_array (m :: rest) (List.cons_ne_nil m rest) fun d hd =>
        h d (Dense.mem_of_mem_pieces piece hpiece d hd)

namespace Binding

theorem nestedAll_of_forall₂ {items : List Document} {parts : List Nested}
    (h : List.Forall₂ (fun d n => nested d = .ok n) items parts) : nestedAll items = .ok parts := by
  induction h with
  | nil => rfl
  | cons hd _ ih =>
      rw [nestedAll, hd]
      show (nestedAll _).map _ = _
      rw [ih]
      rfl

/-- Numbers in the brackets of a shape make nested sequences of that shape. -/
theorem nested_array (shape : List Nat) (hrank : shape ≠ []) {items : List Document}
    {xs : List Scalar} (h : List.Forall₂ (fun d x => nested d = .ok (.scalar x)) items xs) :
    nested (.array shape items) = .ok (Dense.nested shape xs) := by
  match shape with
  | [] => exact absurd rfl hrank
  | [n] =>
      have hall := nestedAll_of_forall₂ (List.forall₂_map_right_iff.mpr h)
      rw [Document.array, nested, Dense.nested, hall]
      rfl
  | n :: m :: rest =>
      have hpieces := Dense.forall₂_pieces n (Word.product (m :: rest)) h
      have hrows : List.Forall₂ (fun d n => nested d = .ok n)
          ((Dense.pieces (Word.product (m :: rest)) n items).map (Document.array (m :: rest)))
          ((Dense.pieces (Word.product (m :: rest)) n xs).map (Dense.nested (m :: rest))) := by
        rw [List.forall₂_map_left_iff, List.forall₂_map_right_iff]
        exact hpieces.imp fun items xs h => nested_array (m :: rest) (List.cons_ne_nil m rest) h
      rw [Document.array, nested, Dense.nested, nestedAll_of_forall₂ hrows]
      rfl

/-! ## Bindings -/

/-- A binding to a JSON text without blanks at its ends binds the value of its document. -/
theorem parse_of_json {name text : String} {d : Document} {v : Value}
    (hname : Text.trim name ≠ "") (hequals : '=' ∉ name.toList)
    (htrim : Text.trimChars text.toList = text.toList) (hjson : Json.parse text = some d)
    (hvalue : valueOf (Text.trim name) d = .ok v) :
    parse (name ++ "=" ++ text) = .ok (Text.trim name, v) := by
  have hchars : (name ++ "=" ++ text).toList = name.toList ++ '=' :: text.toList := by
    rw [String.toList_append, String.toList_append, List.append_assoc]
    rfl
  have hne : ∀ c ∈ name.toList, (c != '=') = true := by
    intro c hc
    rw [bne_iff_ne]
    rintro rfl
    exact hequals hc
  -- the first equals sign is the one between the name and the text
  have htake : (name ++ "=" ++ text).toList.takeWhile (· != '=') = name.toList := by
    rw [hchars, List.takeWhile_append_of_pos hne, List.takeWhile_cons_of_neg (by decide),
      List.append_nil]
  have hdrop : (name ++ "=" ++ text).toList.dropWhile (· != '=') = '=' :: text.toList := by
    rw [hchars, List.dropWhile_append_of_pos hne, List.dropWhile_cons_of_neg (by decide)]
  rw [parse, htake, hdrop]
  dsimp only
  rw [htrim, String.ofList_toList]
  show (if Text.trim name = "" then _ else _) = _
  rw [if_neg hname, hjson]
  show (valueOf (Text.trim name) d).map _ = _
  rw [hvalue]
  rfl

/-- The same value, where a matrix has no datatype. -/
def untagged : Value → Value
  | .matrix m => .matrix { m with datatype := none }
  | v => v

/-- A dense matrix that is read back: it has elements for all positions of one to 127 axes, no
extent but the last one is zero, and its elements are real numbers that are read back. -/
structure Arrayed (d : Dense) : Prop where
  axes : d.shape ≠ []
  levels : d.shape.length ≤ Json.maxNesting
  positive : Dense.Positive d.shape
  size : d.data.size = Shape.count d.shape
  countable : Shape.count d.shape < Word.size
  elements : ∀ s ∈ d.data, ∃ x, s = .real x ∧ ShownExactly x

/-- The values whose texts are read as the values again. -/
inductive Bindable : Value → Prop where
  | null : Bindable .null
  | boolean (b : Bool) : Bindable (.boolean b)
  | number {x : Float} (h : ShownExactly x) : Bindable (.number x)
  | matrix {d : Dense} (h : Arrayed d) (datatype : Option DataType) :
      Bindable (.matrix ⟨.dense d, datatype⟩)

/-- A document for each element of a matrix. -/
theorem exists_documents {xs : List Scalar} (h : ∀ s ∈ xs, ∃ x, s = .real x ∧ ShownExactly x) :
    ∃ items, List.Forall₂ (fun d text => Reads d text.toList) items (xs.map Scalar.text) ∧
      List.Forall₂ (fun d x => nested d = .ok (.scalar x)) items xs ∧
      (∀ d ∈ items, d.nesting = 0) ∧ ∀ d ∈ items, d.all Json.isFinite = true := by
  induction xs with
  | nil => exact ⟨[], .nil, .nil, nofun, nofun⟩
  | cons s rest ih =>
      obtain ⟨⟨x, rfl, hfinite, d, hread, hnested⟩, hrest⟩ := List.forall_mem_cons.mp h
      obtain ⟨items, hreads, hnesteds, hlevels, hall⟩ := ih hrest
      exact ⟨d :: items, .cons (Json.reads_number hread) hreads, .cons hnested hnesteds,
        List.forall_mem_cons.mpr ⟨nesting_of_nested hnested, hlevels⟩,
        List.forall_mem_cons.mpr ⟨isFinite_of_nested hfinite hnested, hall⟩⟩

/-- The text of a matrix is an array in JSON, and the value of that array is the matrix. -/
theorem Arrayed.exists_json {d : Dense} (h : Arrayed d) :
    ∃ array, Json.parse d.text = some array ∧
      ∀ name, valueOf name array = .ok (.matrix (.ofDense d)) := by
  have helements : ∀ s ∈ d.data.toList, ∃ x, s = .real x ∧ ShownExactly x := fun s hs =>
    h.elements s (Array.mem_toList_iff.mp hs)
  obtain ⟨items, hreads, hnested, hlevels, hfinite⟩ := exists_documents helements
  have hjson : Json.parse d.text = some (.array d.shape items) :=
    (reads_bracketed d.shape h.axes hreads).parse_eq (all_array d.shape h.axes hfinite)
      (Nat.le_trans (nesting_array d.shape h.axes hlevels) h.levels)
  refine ⟨.array d.shape items, hjson, fun name => ?_⟩
  -- the array makes nested sequences of the same shape and with the same elements
  have hparts := nested_array d.shape h.axes hnested
  have hlength : d.data.toList.length = Shape.count d.shape := Array.length_toList.trans h.size
  obtain ⟨hshape, hleaves⟩ := Dense.shape_nested_shown d.shape h.countable hlength
  rw [h.positive.shown_eq] at hshape
  obtain ⟨rows, hrows⟩ := exists_nested_eq d.shape h.axes d.data.toList
  have hmatrix : Matrix.ofNested (Dense.nested d.shape d.data.toList) = .ok (.ofDense d) :=
    Matrix.ofNested_eq_ok_iff.mpr ⟨rows, d.shape, hrows, hshape, h.countable, by rw [hleaves]⟩
  obtain ⟨documents, harray⟩ := exists_array_eq d.shape h.axes items
  rw [harray] at hparts ⊢
  rw [valueOf, hparts]
  show ((Matrix.ofNested _).map _).mapError _ = _
  rw [hmatrix]
  rfl

theorem bracketed_ends (shape : List Nat) (hrank : shape ≠ []) (texts : List String) :
    ∃ middle, (Dense.bracketed shape texts).toList = '[' :: (middle ++ [']']) := by
  match shape with
  | [] => exact absurd rfl hrank
  | [n] =>
      rw [Dense.bracketed, String.toList_append, String.toList_append]
      exact ⟨_, rfl⟩
  | n :: m :: rest =>
      rw [Dense.bracketed]
      simp only [String.toList_append]
      exact ⟨_, rfl⟩

/-- What is shown of a value can be bound again: the value, apart from the datatype of a matrix,
gets the trimmed name. -/
theorem parse_text {name : String} {v : Value} (hname : Text.trim name ≠ "")
    (hequals : '=' ∉ name.toList) (hv : Bindable v) :
    parse (name ++ "=" ++ v.text) = .ok (Text.trim name, untagged v) := by
  cases hv with
  | null => exact parse_of_json hname hequals rfl rfl rfl
  | boolean b =>
      cases b
      · exact parse_of_json hname hequals rfl rfl rfl
      · exact parse_of_json hname hequals rfl rfl rfl
  | @number x h =>
      obtain ⟨hfinite, d, hread, hnested⟩ := h
      have hjson := (Json.reads_number hread).parse_eq (isFinite_of_nested hfinite hnested)
        (by rw [nesting_of_nested hnested]; exact Nat.zero_le _)
      exact parse_of_json hname hequals (Text.trimChars_of_forall (Decimal.isBlank_text x)) hjson
        (valueOf_of_nested _ hnested)
  | @matrix d h datatype =>
      obtain ⟨items, hjson, hvalue⟩ := h.exists_json
      obtain ⟨middle, hmiddle⟩ := bracketed_ends d.shape h.axes (d.data.toList.map Scalar.text)
      -- the text begins and ends with a bracket, so there are no blanks to be cut off
      have htrim : Text.trimChars d.text.toList = d.text.toList := by
        refine Text.trimChars_of_ends (fun c hc => ?_) fun c hc => ?_
        · rw [Dense.text, hmiddle] at hc
          cases hc
          decide
        · rw [Dense.text, hmiddle, ← List.cons_append, List.getLast?_concat] at hc
          cases hc
          decide
      exact parse_of_json hname hequals htrim hjson (hvalue _)

/-- A column of two numbers, one of them whole, is bound again. -/
theorem parse_text_column :
    let v := Value.matrix ⟨.dense ⟨[2, 1], #[.real 2.5, .real 3]⟩, some .number⟩
    Text.trim " m " ≠ "" ∧ '=' ∉ " m ".toList ∧ Bindable v ∧
      parse (" m " ++ "=" ++ v.text) = .ok (Text.trim " m ", untagged v) := by
  intro v
  have hhalf : ShownExactly 2.5 := by
    have htext : Decimal.text 2.5 = "2.5" := by decide +kernel
    have hscaled : Decimal.scaled ['2'] ['5'] 0 = 2.5 := by decide +kernel
    refine ⟨by decide, .real 2.5, ?_, rfl⟩
    rw [htext]
    show some (Document.real (Decimal.scaled ['2'] ['5'] 0), []) = _
    rw [hscaled]
  have hthree : ShownExactly 3 := by
    have htext : Decimal.text 3 = "3" := by decide +kernel
    have hvalue : Binary64.ofInt 3 = 3 := by decide +kernel
    refine ⟨by decide, .integer 3, ?_, ?_⟩
    · rw [htext]
      rfl
    · rw [nested, hvalue]
  have harrayed : Arrayed ⟨[2, 1], #[.real 2.5, .real 3]⟩ :=
    { axes := nofun
      levels := by decide
      positive := by simp [Dense.Positive]
      size := rfl
      countable := by decide
      elements := by simp [hhalf, hthree] }
  have hv : Bindable v := .matrix harrayed _
  have hname : Text.trim " m " ≠ "" := by decide
  exact ⟨hname, by decide, hv, parse_text hname (by decide) hv⟩

end Binding

end Formula
