import Formula.Proofs.Eval.Growth
import Formula.Proofs.Matrix.Selection

set_option autoImplicit false

/-! # Updates inside a matrix

The limit on elements is meant for growth. Where all indices are inside, the shape predicted is the
shape that the matrix has (`grownShape_of_inside`), every position is there to be written, and the
update succeeds (`update_inside`).

But the shape predicted is compared with the limit whether it is larger or not. A matrix may have
been in scope before the limit was lowered below its size, and then not one of its elements can be
replaced (`limit_stops_update`).
-/

namespace Formula

/-! ## Assignments inside -/

/-- A shape covers its own positions, however many of them. -/
theorem Shape.foldl_cover_of_contains {shape : List Nat} {positions : List (List Nat)}
    (h : ∀ p ∈ positions, contains shape p = true) : positions.foldl cover shape = shape := by
  induction positions with
  | nil => rfl
  | cons p ps ih =>
      obtain ⟨hp, hps⟩ := List.forall_mem_cons.mp h
      rw [List.foldl_cons, cover_of_contains hp, ih hps]

namespace Matrix

variable {m r : Matrix} {lists : List (List Nat)}

/-- One element, or as many as are selected, can be assigned to a selection. -/
theorem exists_assignments {count : Nat} (hrank : lists.length = m.rank)
    (hcount : Shape.checkedCount (lists.map List.length) maxElements = .ok count)
    (hr : r.expand = .ok r.elements) (hsize : r.elements.size = 1 ∨ r.elements.size = count) :
    ∃ writes, m.assignments lists r = .ok writes := by
  rw [assignments, if_neg (not_not.mpr hrank), hr, hcount]
  by_cases hone : r.elements.size = 1
  · exact ⟨_, if_pos hone⟩
  · have hmany : ¬r.elements.size ≠ count := not_not.mpr (hsize.resolve_left hone)
    exact ⟨_, (if_neg hone).trans (if_neg hmany)⟩

/-- An assignment inside a dense matrix is made as a whole and keeps the shape, whatever the size of
the matrix. -/
theorem setSubset_inside {d : Dense} {datatype : Option DataType} (h : d.WellFormed)
    (hin : List.Forall₂ (fun indices extent => ∀ i ∈ indices, i < extent) lists d.shape)
    (hcounted : Shape.Counted (lists.map List.length))
    (hselected : Shape.count (lists.map List.length) ≤ maxElements)
    (hr : r.expand = .ok r.elements)
    (hsize : r.elements.size = 1 ∨ r.elements.size = Shape.count (lists.map List.length))
    (hadmits : ∀ x ∈ r.elements, checkStore datatype x = .ok ()) :
    ∃ written, setSubset ⟨.dense d, datatype⟩ lists r = (.ok (), ⟨.dense written, datatype⟩) ∧
      written.shape = d.shape := by
  have hm : Matrix.WellFormed ⟨.dense d, datatype⟩ := h
  have hrank : lists.length = d.shape.length := hin.length_eq
  obtain ⟨writes, hwrites⟩ := exists_assignments (m := ⟨.dense d, datatype⟩) hrank
    (Shape.checkedCount_of_counted hcounted hselected) hr hsize
  have htargets : ∀ write ∈ writes, Shape.contains d.shape write.1 = true := fun write hwrite =>
    (Shape.selects_iff hrank).mp ⟨hrank, Or.inr hin⟩ _
      (mem_selection_of_assignments hwrites write hwrite)
  -- the positions of the matrix itself are room enough
  have hroom : Room ⟨.dense d, datatype⟩ d.shape := ⟨h, d.within_shape⟩
  rcases hroom.writeAll htargets with ⟨r', hr'⟩ | ⟨write, hwrite, fault, hfault, -⟩
  · have hwritten : Written writes ⟨.dense d, datatype⟩ r' := hm.writeAll nofun hr'
    have hshape : r'.shape = d.shape := hwritten.shape.trans
      (Shape.foldl_cover_of_contains (List.forall_mem_map.mpr htargets))
    obtain ⟨⟨written⟩ | ⟨s⟩, datatype'⟩ := r'
    · have htag : datatype' = datatype := hwritten.datatype
      subst htag
      refine ⟨written, ?_, hshape⟩
      rw [setSubset, hwrites]
      exact hr'
    · cases hwritten.storageKind
  · rw [hadmits _ (mem_elements_of_assignments hwrites write hwrite)] at hfault
    cases hfault

end Matrix

namespace Eval

open Formula.Matrix

variable {lists : List (List Nat)}

/-- Inside of a matrix no growth is predicted. -/
theorem grownShape_of_inside {shape : List Nat}
    (hin : List.Forall₂ (fun indices extent => ∀ i ∈ indices, i < extent) lists shape) :
    grownShape shape lists = shape := by
  rw [grownShape, if_pos hin.length_eq.symm]
  induction hin with
  | nil => rfl
  | @cons indices extent _ _ hindices _ ih =>
      have hextent : indices.foldl (fun d i => max d (Word.satSucc i)) extent = extent := by
        clear ih
        induction indices with
        | nil => rfl
        | cons i is ih =>
            obtain ⟨hi, his⟩ := List.forall_mem_cons.mp hindices
            have hnext : Word.satSucc i ≤ extent := Nat.le_trans (Nat.min_le_left _ _) hi
            rw [List.foldl_cons, Nat.max_eq_left hnext, ih his]
      exact congrArg₂ List.cons hextent ih

/-- A matrix within the limit may be updated inside. -/
theorem checkGrowth_inside {d : Dense} {limit : Nat}
    (hin : List.Forall₂ (fun indices extent => ∀ i ∈ indices, i < extent) lists d.shape)
    (hcounted : Shape.Counted d.shape) (hlimit : Shape.count d.shape ≤ limit)
    (datatype : Option DataType) : checkGrowth ⟨.dense d, datatype⟩ lists limit = .ok () := by
  show (Shape.checkedCount (grownShape d.shape lists) limit).map _ = _
  rw [grownShape_of_inside hin, Shape.checkedCount_of_counted hcounted hlimit]
  rfl

/-- The value can be assigned to so many elements of a matrix with this datatype: it is a number, or
a matrix with as many elements, and the datatype admits what is to be stored. -/
inductive Suits (datatype : Option DataType) (count : Nat) : Value → Prop where
  | scalar {v : Value} {x : Scalar} (hkind : v.kind ≠ .matrix) (hv : v.toScalar = .ok x)
      (hx : checkStore datatype x = .ok ()) : Suits datatype count v
  | matrix {r : Matrix} (hr : r.WellFormed) (hsize : Shape.count r.shape = count)
      (hadmits : ∀ x ∈ r.elements, checkStore datatype x = .ok ()) :
      Suits datatype count (.matrix r)

theorem Suits.replacement {datatype : Option DataType} {count : Nat} {v : Value}
    (h : Suits datatype count v) (hcount : count < Word.size) :
    ∃ r, Eval.replacement v = .ok r ∧ r.expand = .ok r.elements ∧
      (r.elements.size = 1 ∨ r.elements.size = count) ∧
      ∀ x ∈ r.elements, checkStore datatype x = .ok () := by
  cases h with
  | @scalar _ x hkind hv hx =>
      -- every value that is no matrix counts as a matrix of one element
      have hone : Eval.replacement v = .ok (ofDense ⟨[1], #[x]⟩) := by
        cases v with
        | matrix m => exact absurd rfl hkind
        | _ =>
            rw [Eval.replacement, hv]
            · rfl
            · exact nofun
      refine ⟨_, hone, rfl, Or.inl rfl, fun y hy => ?_⟩
      have hy' : y ∈ #[x] := hy
      rw [Array.mem_singleton.mp hy']
      exact hx
  | @matrix r hr hsize hadmits =>
      have hsmall : Shape.count r.shape < Word.size := hsize.symm ▸ hcount
      refine ⟨r, rfl, hr.expand_eq hsmall, Or.inr ?_, hadmits⟩
      rw [hr.size_elements, Matrix.numel, Word.product_of_lt hsmall, hsize]

/-! ## Steps of an update -/

section steps

variable {α β : Type} {m after : Machine}

theorem ofExcept_of_ok {outcome : Except EvalError α} {a : α} (h : outcome = .ok a) (m : Machine) :
    ofExcept outcome m = (.ok a, m) := by
  subst h
  rfl

/-- An update of a variable that nothing is refused of. -/
theorem updateVariable_of_ok {name : String} {v : Value} {a r written : Matrix}
    (hvar : m.scope.get? name = some (.matrix a)) (hr : replacement v = .ok r)
    (hgrowth : checkGrowth a lists m.scope.maxElements = .ok ())
    (hset : a.setSubset lists r = (.ok (), written)) :
    ∃ after, updateVariable name lists v m = (.ok (), after) ∧
      after.scope = m.scope.set name (.matrix written) := by
  have hmatrix : variableMatrix m.scope name = .ok a := by
    rw [variableMatrix, hvar]
  rw [updateVariable, Outcome.bind_of_ok (show scope m = (.ok m.scope, m) from rfl),
    Outcome.bind_of_ok (ofExcept_of_ok hmatrix m), Outcome.bind_of_ok (ofExcept_of_ok hr m),
    Outcome.bind_of_ok (ofExcept_of_ok hgrowth m), hset]
  exact ⟨_, rfl, rfl⟩

end steps

/-- An update inside a dense matrix succeeds and keeps the shape, if the matrix itself is within the
limit on elements. -/
theorem update_inside {registry : Registry} {call : Caller Eval} {name : String}
    {dimensions : List Code} {expr : Code} {m between after : Machine} {values : List Value}
    {v : Value} {d : Dense} {datatype : Option DataType}
    (hdimensions : codes registry call dimensions m = (.ok values, between))
    (hlists : values.mapM indices = .ok lists)
    (hexpr : code registry call expr between = (.ok v, after))
    (hvar : after.scope.get? name = some (.matrix ⟨.dense d, datatype⟩)) (hd : d.WellFormed)
    (hin : List.Forall₂ (fun indices extent => ∀ i ∈ indices, i < extent) lists d.shape)
    (hcounted : Shape.Counted (lists.map List.length))
    (hselected : Shape.count (lists.map List.length) ≤ maxElements)
    (hv : Suits datatype (Shape.count (lists.map List.length)) v)
    (hshape : Shape.Counted d.shape) (hlimit : Shape.count d.shape ≤ after.scope.maxElements) :
    ∃ written last, code registry call (.update name dimensions expr) m = (.ok v, last) ∧
      last.scope = after.scope.set name (.matrix ⟨.dense written, datatype⟩) ∧
      written.shape = d.shape := by
  obtain ⟨r, hr, hexpand, hsize, hadmits⟩ :=
    hv.replacement (Nat.lt_of_le_of_lt hselected (by decide))
  obtain ⟨written, hset, hkept⟩ := setSubset_inside hd hin hcounted hselected hexpand hsize hadmits
  obtain ⟨last, hupdate, hlast⟩ :=
    updateVariable_of_ok hvar hr (checkGrowth_inside hin hshape hlimit datatype) hset
  refine ⟨written, last, ?_, hlast, hkept⟩
  -- the steps of an update in their order: indices, value, write
  rw [code]
  refine (Outcome.bind_of_ok hdimensions _).trans ?_
  refine (Outcome.bind_of_ok (ofExcept_of_ok hlists between) _).trans ?_
  refine (Outcome.bind_of_ok hexpr _).trans ?_
  exact Outcome.bind_of_ok hupdate _

/-- A whole number from one on names the index below it. -/
theorem indexOf_eq {position : Float} {i : Nat}
    (hnumber : ¬(!Binary64.isWhole position || position < 1) = true)
    (hindex : Word.ofFloat position - 1 = i) : indexOf position = .ok i := by
  rw [indexOf, if_neg hnumber, hindex]

theorem indices_ofReals (xs : List Float) :
    indices (.matrix (ofReals xs)) = xs.mapM indexOf := by
  show (xs.map Scalar.real).mapM _ = _
  rw [List.mapM_map]
  rfl

theorem code_pair {registry : Registry} {call : Caller Eval} (x y : Float) (m : Machine) :
    code registry call (.array [.constant (.number x), .constant (.number y)]) m
      = (.ok (.matrix (ofReals [x, y])), m) := rfl

/-- In the last column of a matrix, both elements are replaced by the two of a vector, the lower one
first. The limit leaves no room for more elements than the matrix has. -/
theorem update_inside_column :
    let d : Dense := ⟨[2, 3], #[.real 1, .real 2, .real 3, .real 4, .real 5, .real 6]⟩
    let m : Machine :=
      ⟨(Scope.empty.withMaxElements 6).set "A" (.matrix ⟨.dense d, some .number⟩), 0, #[]⟩
    let pair (x y : Float) := Code.array [.constant (.number x), .constant (.number y)]
    let values := [Value.matrix (ofReals [2, 1]), .number 3]
    let lists := [[1, 0], [2]]
    d.WellFormed ∧ values.mapM indices = .ok lists ∧
      List.Forall₂ (fun indices extent => ∀ i ∈ indices, i < extent) lists d.shape ∧
      Suits (some .number) 2 (.matrix (ofReals [7, 8])) ∧
      ∃ written last, run #[] (.update "A" [pair 2 1, .constant (.number 3)] (pair 7 8)) m
          = (.ok (.matrix (ofReals [7, 8])), last) ∧
        last.scope = m.scope.set "A" (.matrix ⟨.dense written, some .number⟩) ∧
        written.shape = [2, 3] := by
  intro d m pair values lists
  have hd : d.WellFormed := ⟨rfl, by decide⟩
  -- positions count from one, indices from zero
  have hone : indexOf 1 = .ok 0 := indexOf_eq (by decide +kernel) (by decide +kernel)
  have htwo : indexOf 2 = .ok 1 := indexOf_eq (by decide +kernel) (by decide +kernel)
  have hthree : indexOf 3 = .ok 2 := indexOf_eq (by decide +kernel) (by decide +kernel)
  have hlast : indices (.number 3) = .ok [2] := congrArg (Except.map ([·])) hthree
  have hlists : values.mapM indices = .ok lists := by
    rw [List.mapM_cons, List.mapM_cons, indices_ofReals, hlast, List.mapM_cons, List.mapM_cons,
      htwo, hone]
    rfl
  have hin : List.Forall₂ (fun indices extent => ∀ i ∈ indices, i < extent) lists d.shape :=
    .cons (by decide) (.cons (by decide) .nil)
  have hv : Suits (some .number) 2 (.matrix (ofReals [7, 8])) :=
    .matrix ⟨rfl, by decide⟩ rfl fun x hx => by
      obtain ⟨y, -, rfl⟩ := List.mem_map.mp (List.mem_toArray.mp hx)
      rfl
  have hdimensions : codes #[] (call #[] Word.last) [pair 2 1, .constant (.number 3)] m
      = (.ok values, m) := by
    rw [codes, codes, codes]
    exact Outcome.bind_of_ok (code_pair 2 1 m) _
  have hvar : m.scope.get? "A" = some (.matrix ⟨.dense d, some .number⟩) := rfl
  exact ⟨hd, hlists, hin, hv, update_inside hdimensions hlists (code_pair 7 8 m) hvar hd hin
    (Shape.counted_of_pos (by decide) (by decide)) (by decide) hv
    (Shape.counted_of_pos (by decide) (by decide)) (by decide)⟩

/-- One of three elements is replaced, or none, where the limit is two; or none of a matrix without
elements, whose last extent is zero while the product of the others is no count. None of the updates
makes the matrix larger, and all of them are refused. -/
theorem limit_stops_update :
    let vector : Dense := ⟨[3], #[.real 1, .real 2, .real 3]⟩
    let hollow : Dense := ⟨[2 ^ 63, 4, 0], #[]⟩
    let scope := Scope.empty.set "B" (.matrix (ofDense hollow))
    let m : Machine := ⟨(scope.withMaxElements 2).set "A" (.matrix (ofDense vector)), 0, #[]⟩
    let nowhere := Code.array []
    vector.WellFormed ∧ hollow.WellFormed ∧ (∀ count, Suits none count (.number 7)) ∧
      run #[] nowhere m = (.ok (.matrix .empty), m) ∧ indices (.matrix .empty) = .ok [] ∧
      updateVariable "A" [[0]] (.number 7) m = (.error (.dimension (.tooLarge [3] 2)), m) ∧
      run #[] (.update "A" [nowhere] (.constant (.number 7))) m
        = (.error (.dimension (.tooLarge [3] 2)), m) ∧
      run #[] (.update "B" [nowhere, nowhere, nowhere] (.constant (.number 7))) m
        = (.error (.dimension (.tooLarge [2 ^ 63, 4, 0] 2)), m) := by
  intro vector hollow scope m nowhere
  have hseven : ∀ count, Suits none count (.number 7) := fun count =>
    .scalar (by decide) rfl rfl
  exact ⟨⟨rfl, by decide⟩, ⟨rfl, by decide⟩, hseven, rfl, rfl, rfl, rfl, rfl⟩

end Eval

end Formula
