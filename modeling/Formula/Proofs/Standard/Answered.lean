import Formula.Proofs.Matrix.Answered

set_option autoImplicit false

/-! # Operations that answer

Every standard operation answers on arguments that can be written out (`Operation.apply_answered`).
The proof goes through the operations as they are defined: what is extended element by element
answers if it does so for each element, and the rest is put together from matrices that answer.
-/

namespace Formula

/-! ## Values -/

namespace Value

/-- The value is no matrix, or one that can be written out. -/
def Addressable : Value → Prop
  | .matrix m => m.Addressable
  | _ => True

variable {v : Value} {args : List Value}

theorem toReal_answered (v : Value) : Answered v.toReal := by
  cases v with
  | number x => exact answered_ok x
  | boolean b => exact answered_ok (bit b)
  | complex z => exact answered_ite (fun _ => answered_ok z.re) fun _ => answered_refused rfl
  | null | string _ | matrix _ | function _ => exact answered_refused rfl

theorem truth_answered (v : Value) : Answered v.truth := by
  cases v <;> nofun

theorem toScalar_answered (h : v.Addressable) : Answered v.toScalar := by
  cases v with
  | matrix m =>
      have hm : m.Addressable := h
      exact answered_ite (fun _ => answered_map hm.expand_answered _) fun _ => answered_refused rfl
  | null | boolean _ | number _ | complex _ | string _ | function _ => nofun

theorem toNested_answered (h : v.Addressable) : Answered v.toNested := by
  cases v with
  | matrix m =>
      have hm : m.Addressable := h
      exact answered_map hm.expand_answered _
  | null | boolean _ | number _ | complex _ | string _ | function _ =>
      exact answered_map (toScalar_answered h) Nested.scalar

end Value

namespace Nested

mutual

theorem shape_answered (nested : Nested) : Answered nested.shape := by
  match nested with
  | .scalar x =>
      rw [shape]
      exact answered_ok _
  | .seq [] =>
      rw [shape]
      exact answered_ok _
  | .seq (first :: rest) =>
      rw [shape]
      refine answered_bind (shape_answered first) fun inner _ => ?_
      exact answered_bind (sameShape_answered inner rest) fun _ _ => answered_ok _

theorem sameShape_answered (expected : List Nat) (items : List Nested) :
    Answered (sameShape expected items) := by
  match items with
  | [] =>
      rw [sameShape]
      exact answered_ok ()
  | item :: rest =>
      rw [sameShape]
      refine answered_bind (shape_answered item) fun other _ => ?_
      exact answered_ite (fun _ => sameShape_answered expected rest) fun _ => answered_refused rfl

end

end Nested

theorem Value.collect_answered {items : List Value} (h : ∀ v ∈ items, v.Addressable) :
    Answered (Value.collect items) := by
  refine answered_ite (fun _ => answered_ok _) fun _ => ?_
  refine answered_bind (answered_mapM fun v hv => toNested_answered (h v hv)) fun nested _ => ?_
  refine answered_map (answered_bind (Nested.shape_answered _) fun shape _ => ?_) _
  exact Matrix.ofData_answered _ _

/-! ## Operands -/

namespace Operand

variable {v w : Value} {m : Matrix}

/-- The operand is a number, or a matrix that can be written out. -/
def Addressable : Operand → Prop
  | .scalar _ => True
  | .matrix m => m.Addressable

theorem ofValue_answered (function : String) (v : Value) : Answered (ofValue function v) := by
  cases v <;> nofun

theorem addressable_of_ofValue {function : String} (hv : v.Addressable) {operand : Operand}
    (h : ofValue function v = .ok operand) : operand.Addressable := by
  cases v <;> cases h
  · trivial
  · trivial
  · trivial
  · exact hv

theorem mapElements_answered (h : m.Addressable) {f : Scalar → Except EvalError Scalar}
    (hf : ∀ x, Answered (f x)) : Answered (mapElements m f) := by
  refine answered_bind h.expand_answered fun elements _ => ?_
  refine answered_bind (answered_array_mapM fun x _ => hf x) fun data _ => ?_
  exact answered_map (Matrix.ofData_answered data m.shape) _

theorem unary_answered (function : String) (hv : v.Addressable)
    {f : Scalar → Except EvalError Scalar} (hf : ∀ x, Answered (f x)) :
    Answered (unary function v f) := by
  refine answered_bind (ofValue_answered function v) fun operand hoperand => ?_
  have haddressable := addressable_of_ofValue hv hoperand
  cases operand with
  | scalar x => exact answered_map (hf x) _
  | matrix m => exact mapElements_answered haddressable hf

theorem broadcast_answered (function : String) (hv : v.Addressable) (hw : w.Addressable)
    {f : Scalar → Scalar → Except EvalError Scalar} (hf : ∀ x y, Answered (f x y)) :
    Answered (broadcast function v w f) := by
  refine answered_bind (ofValue_answered function v) fun left hleft => ?_
  refine answered_bind (ofValue_answered function w) fun right hright => ?_
  have hleft := addressable_of_ofValue hv hleft
  have hright := addressable_of_ofValue hw hright
  cases left with
  | scalar x =>
      cases right with
      | scalar y => exact answered_map (hf x y) _
      | matrix n => exact mapElements_answered hright (hf x)
  | matrix m =>
      cases right with
      | scalar y => exact mapElements_answered hleft fun x => hf x y
      | matrix n => exact answered_map (Matrix.Addressable.zipWith_answered hleft hright hf) _

theorem toText_answered (function : String) (v : Value) : Answered (toText function v) := by
  cases v <;> nofun

theorem toCount_answered (function : String) (v : Value) : Answered (toCount function v) := by
  refine answered_bind v.toReal_answered fun x _ => ?_
  exact answered_ite (fun _ => answered_refused rfl) fun _ => answered_ok _

end Operand

/-! ## The families of operations -/

section families

variable {v w : Value} {args : List Value}

namespace Arithmetic

theorem elementwise_answered (function : String) (hv : v.Addressable) (hw : w.Addressable)
    (f : Scalar → Scalar → Scalar) : Answered (elementwise function v w f) :=
  Operand.broadcast_answered function hv hw fun _ _ => answered_ok _

theorem multiplyValues_answered (hv : v.Addressable) (hw : w.Addressable) :
    Answered (multiplyValues v w) := by
  unfold multiplyValues
  split
  · exact Matrix.Addressable.product_answered hv hw
  · exact elementwise_answered _ hv hw _

theorem divideValues_answered (hv : v.Addressable) (hw : w.Addressable) :
    Answered (divideValues v w) := by
  unfold divideValues
  split
  · exact answered_refused rfl
  · exact elementwise_answered _ hv hw _

theorem powValues_answered (hv : v.Addressable) : Answered (powValues v w) := by
  refine answered_bind (Operand.ofValue_answered _ v) fun base hbase => ?_
  refine answered_bind (Operand.ofValue_answered _ w) fun exponent _ => ?_
  have hbase := Operand.addressable_of_ofValue hv hbase
  split
  · exact answered_ok _
  · exact answered_map (Matrix.Addressable.power_answered hbase _) _
  · exact answered_refused rfl
  · exact answered_refused rfl

theorem mod_answered (x y : Scalar) : Answered (x.mod y) := by
  cases x <;> cases y <;> nofun

theorem apply_answered (op : Arithmetic) (h : ∀ v ∈ args, v.Addressable) :
    Answered (op.apply args) := by
  match args, h with
  | [v], h =>
      have hv : v.Addressable := h v List.mem_cons_self
      cases op with
      | unaryMinus | unaryPlus => exact Operand.unary_answered _ hv fun _ => answered_ok _
      | _ => exact answered_refused rfl
  | [v, w], h =>
      have hv : v.Addressable := h v List.mem_cons_self
      have hw : w.Addressable := h w (List.mem_cons_of_mem _ List.mem_cons_self)
      cases op with
      | multiply => exact multiplyValues_answered hv hw
      | divide => exact divideValues_answered hv hw
      | pow => exact powValues_answered hv
      | mod => exact Operand.broadcast_answered _ hv hw mod_answered
      | unaryMinus | unaryPlus => exact answered_refused rfl
      | _ => exact elementwise_answered _ hv hw _
  | [], _ | _ :: _ :: _ :: _, _ => cases op <;> exact answered_refused rfl

end Arithmetic

namespace Relation

theorem compareScalars_answered (r : Relation) (x y : Scalar) :
    Answered (r.compareScalars x y) := by
  unfold compareScalars
  split
  · exact answered_ok _
  · exact answered_ite (fun _ => answered_ok _) fun _ => answered_refused rfl

theorem compareNumbers_answered (r : Relation) (hv : v.Addressable) (hw : w.Addressable) :
    Answered (r.compareNumbers v w) :=
  answered_map (Operand.broadcast_answered _ hv hw r.compareScalars_answered) _

theorem compare_answered (r : Relation) (hv : v.Addressable) (hw : w.Addressable) :
    Answered (r.compare v w) := by
  have withNull : Answered (if r.isEquality then .ok (.boolean (r == unequal))
      else r.compareNumbers v w) :=
    answered_ite (fun _ => answered_ok _) fun _ => compareNumbers_answered r hv hw
  unfold compare
  extract_lets
  split
  · exact answered_ok _
  · exact answered_ok _
  · exact withNull
  · exact withNull
  · exact compareNumbers_answered r hv hw

theorem apply_answered (r : Relation) (h : ∀ v ∈ args, v.Addressable) :
    Answered (r.apply args) := by
  unfold apply
  split
  · next v w =>
      exact compare_answered r (h v List.mem_cons_self)
        (h w (List.mem_cons_of_mem _ List.mem_cons_self))
  · exact answered_refused rfl

end Relation

namespace Logic

theorem negate_answered (hv : v.Addressable) : Answered (negate v) := by
  unfold negate
  split
  · exact Operand.mapElements_answered hv fun _ => answered_ok _
  · exact answered_map (Value.truth_answered _) _

theorem apply_answered (op : Logic) (h : ∀ v ∈ args, v.Addressable) :
    Answered (op.apply args) := by
  have htruth (v : Value) : Answered (v.truth.map Value.boolean) :=
    answered_map v.truth_answered _
  unfold apply
  split
  · next v => exact negate_answered (h v List.mem_cons_self)
  · next v w =>
      refine answered_bind v.truth_answered fun _ _ => ?_
      exact answered_ite (fun _ => htruth w) fun _ => answered_ok _
  · next v w =>
      refine answered_bind v.truth_answered fun _ _ => ?_
      exact answered_ite (fun _ => answered_ok _) fun _ => htruth w
  · next v w =>
      refine answered_bind v.truth_answered fun _ _ => ?_
      exact answered_bind w.truth_answered fun _ _ => answered_ok _
  · exact answered_refused rfl

end Logic

theorem Elementary.apply_answered (f : Elementary) (h : ∀ v ∈ args, v.Addressable) :
    Answered (f.apply args) := by
  unfold apply
  split
  · next v => exact Operand.unary_answered _ (h v List.mem_cons_self) fun _ => answered_ok _
  · exact answered_refused rfl

theorem logarithm_answered (h : ∀ v ∈ args, v.Addressable) : Answered (logarithm args) := by
  unfold logarithm
  split
  · next v => exact Operand.unary_answered _ (h v List.mem_cons_self) fun _ => answered_ok _
  · next v base =>
      exact Operand.broadcast_answered _ (h v List.mem_cons_self)
        (h base (List.mem_cons_of_mem _ List.mem_cons_self)) fun _ _ => answered_ok _
  · exact answered_refused rfl

theorem makeComplex_answered (h : ∀ v ∈ args, v.Addressable) : Answered (makeComplex args) := by
  unfold makeComplex
  split
  · split
    · exact answered_ok _
    · exact answered_refused rfl
  · next v _ => exact answered_map (Value.toScalar_answered (h v List.mem_cons_self)) _
  · next v w =>
      refine answered_bind v.toReal_answered fun _ _ => ?_
      exact answered_bind w.toReal_answered fun _ _ => answered_ok _
  · exact answered_refused rfl

theorem Value.ctranspose_answered (hv : v.Addressable) : Answered v.ctranspose := by
  cases v with
  | matrix m =>
      have hm : m.Addressable := hv
      exact answered_map (hm.wellFormed.transposeWith_answered _) _
  | _ => nofun

theorem Value.toMatrix_answered (hv : v.Addressable) (storage datatype : Option String) :
    Answered (v.toMatrix storage datatype) := by
  cases v with
  | matrix m => exact Matrix.Addressable.copy_answered hv storage datatype
  | _ => nofun

namespace Construction

theorem transpose_answered (hv : v.Addressable) : Answered (transpose v) := by
  cases v with
  | matrix m =>
      have hm : m.Addressable := hv
      exact answered_map (hm.wellFormed.transposeWith_answered _) _
  | _ => nofun

theorem nonzeros_answered (v : Value) : Answered (nonzeros v) := by
  cases v <;> nofun

theorem matrix_answered (h : ∀ v ∈ args, v.Addressable) : Answered (matrix args) := by
  unfold matrix
  split
  · exact Matrix.construct_answered _ _
  · exact Matrix.construct_answered _ _
  · next v _ => exact Value.toMatrix_answered (h v List.mem_cons_self) _ _
  · next v storage =>
      refine answered_bind (Operand.toText_answered _ storage) fun _ _ => ?_
      exact Value.toMatrix_answered (h v List.mem_cons_self) _ _
  · next v storage datatype =>
      refine answered_bind (Operand.toText_answered _ storage) fun _ _ => ?_
      refine answered_bind (Operand.toText_answered _ datatype) fun _ _ => ?_
      exact Value.toMatrix_answered (h v List.mem_cons_self) _ _
  · exact answered_refused rfl

theorem sparse_answered (h : ∀ v ∈ args, v.Addressable) : Answered (sparse args) := by
  unfold sparse
  split
  · exact Matrix.construct_answered _ _
  · next v => exact Value.toMatrix_answered (h v List.mem_cons_self) _ _
  · next v datatype =>
      refine answered_bind (Operand.toText_answered _ datatype) fun _ _ => ?_
      exact Value.toMatrix_answered (h v List.mem_cons_self) _ _
  · exact answered_refused rfl

theorem extents_answered (h : ∀ v ∈ args, v.Addressable) : Answered (extents args) := by
  unfold extents
  split
  · next m =>
      have hm : m.Addressable := h (.matrix m) List.mem_cons_self
      refine answered_bind hm.expand_answered fun data _ => ?_
      exact answered_mapM fun x _ => Operand.toCount_answered _ _
  · exact answered_mapM fun v _ => Operand.toCount_answered _ v

theorem zeros_answered (h : ∀ v ∈ args, v.Addressable) : Answered (zeros args) := by
  refine answered_bind (extents_answered h) fun shape _ => ?_
  refine answered_ite (fun _ => answered_ok _) fun _ => ?_
  exact answered_bind (Shape.checkedCount_answered _ _) fun _ _ => answered_ok _

theorem identity_answered (args : List Value) : Answered (identity args) := by
  unfold identity
  split
  · refine answered_bind (Operand.toCount_answered _ _) fun _ _ => ?_
    exact answered_bind (Shape.checkedCount_answered _ _) fun _ _ => answered_ok _
  · refine answered_bind (Operand.toCount_answered _ _) fun _ _ => ?_
    refine answered_bind (Operand.toCount_answered _ _) fun _ _ => ?_
    exact answered_bind (Shape.checkedCount_answered _ _) fun _ _ => answered_ok _
  · exact answered_refused rfl

end Construction

/-! ## All operations -/

namespace Operation

theorem applyOne_answered {op : Operation} {f : Value → Except EvalError Value}
    (hf : ∀ v ∈ args, Answered (f v)) : Answered (op.applyOne f args) := by
  unfold applyOne
  split
  · exact hf _ List.mem_cons_self
  · exact answered_refused rfl

/-- **Every standard operation answers** on arguments that can be written out. -/
theorem apply_answered (op : Operation) (h : ∀ v ∈ args, v.Addressable) :
    Answered (op.apply args) := by
  cases op with
  | arithmetic op => exact op.apply_answered h
  | relation r => exact r.apply_answered h
  | logic op => exact op.apply_answered h
  | elementary f => exact f.apply_answered h
  | log => exact logarithm_answered h
  | complex => exact makeComplex_answered h
  | ctranspose => exact applyOne_answered fun v hv => Value.ctranspose_answered (h v hv)
  | transpose => exact applyOne_answered fun v hv => Construction.transpose_answered (h v hv)
  | size => exact applyOne_answered fun v _ => answered_ok (Construction.size v)
  | nnz => exact applyOne_answered fun v _ => Construction.nonzeros_answered v
  | matrix => exact answered_map (Construction.matrix_answered h) _
  | sparse => exact answered_map (Construction.sparse_answered h) _
  | zeros => exact answered_map (Construction.zeros_answered h) _
  | identity => exact answered_map (Construction.identity_answered args) _

end Operation

end families

end Formula
