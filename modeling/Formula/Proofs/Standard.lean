import Formula.Eval

set_option autoImplicit false

/-! # No standard operation returns a function

Functions come from function assignments alone: an operation that is given one as an argument
either refuses it or forgets it. A namespace in which the functions of the host do the same is
`Sealed`.
-/

namespace Formula

/-- The outcome is an error or a value that is no function. -/
def Plain (outcome : Except EvalError Value) : Prop :=
  ∀ v, outcome = .ok v → v.kind ≠ .function

/-- No function of the host returns a function value. -/
def Sealed (registry : Registry) : Prop := ∀ f ∈ registry, ∀ args, Plain (f args)

/-! ## Outcomes -/

theorem plain_ok {v : Value} (h : v.kind ≠ .function) : Plain (.ok v) := by
  intro w hw
  cases hw
  exact h

theorem plain_error (fault : EvalError) : Plain (.error fault) := nofun

theorem plain_map {α : Type} {x : Except EvalError α} {f : α → Value}
    (h : ∀ a, (f a).kind ≠ .function) : Plain (x.map f) := by
  cases x with
  | error fault => exact plain_error fault
  | ok a => exact plain_ok (h a)

theorem plain_bind {α : Type} {x : Except EvalError α} {k : α → Except EvalError Value}
    (h : ∀ a, Plain (k a)) : Plain (x >>= k) := by
  cases x with
  | error fault => exact plain_error fault
  | ok a => exact h a

theorem plain_ite {p : Prop} [Decidable p] {x y : Except EvalError Value} (hx : Plain x)
    (hy : Plain y) : Plain (if p then x else y) := by
  split
  · exact hx
  · exact hy

theorem kind_ofScalar (x : Scalar) : (Value.ofScalar x).kind ≠ .function := by
  cases x <;> nofun

theorem plain_ofScalar (x : Except EvalError Scalar) : Plain (x.map .ofScalar) :=
  plain_map kind_ofScalar

theorem plain_matrix (x : Except EvalError Matrix) : Plain (x.map .matrix) :=
  plain_map fun _ => nofun

theorem plain_boolean (x : Except EvalError Bool) : Plain (x.map .boolean) :=
  plain_map fun _ => nofun

/-! ## Operands -/

namespace Operand

theorem mapElements_plain (m : Matrix) (f : Scalar → Except EvalError Scalar) :
    Plain (mapElements m f) := plain_bind fun _ => plain_bind fun _ => plain_matrix _

theorem unary_plain (function : String) (v : Value) (f : Scalar → Except EvalError Scalar) :
    Plain (unary function v f) := by
  refine plain_bind fun operand => ?_
  cases operand with
  | scalar x => exact plain_ofScalar _
  | matrix m => exact mapElements_plain m f

theorem broadcast_plain (function : String) (v w : Value)
    (f : Scalar → Scalar → Except EvalError Scalar) : Plain (broadcast function v w f) := by
  refine plain_bind fun left => plain_bind fun right => ?_
  cases left with
  | scalar x =>
      cases right with
      | scalar y => exact plain_ofScalar _
      | matrix n => exact mapElements_plain n _
  | matrix m =>
      cases right with
      | scalar y => exact mapElements_plain m _
      | matrix n => exact plain_matrix _

end Operand

/-! ## The families of operations -/

theorem Matrix.product_plain (a b : Matrix) : Plain (a.product b) := by
  refine plain_bind fun left => plain_bind fun right => ?_
  refine plain_ite (plain_error (.dimension (.product left.2 right.1))) ?_
  refine plain_bind fun x => plain_bind fun y => plain_bind fun _ => plain_bind fun _ => ?_
  dsimp only
  split
  · exact plain_ok (kind_ofScalar _)
  · exact plain_matrix _
  · exact plain_matrix _
  · exact plain_matrix _

namespace Arithmetic

theorem multiplyValues_plain (v w : Value) : Plain (multiplyValues v w) := by
  unfold multiplyValues
  split
  · exact Matrix.product_plain _ _
  · exact Operand.broadcast_plain _ _ _ _

theorem divideValues_plain (v w : Value) : Plain (divideValues v w) := by
  unfold divideValues
  split
  · exact plain_error _
  · exact Operand.broadcast_plain _ _ _ _

theorem powValues_plain (v w : Value) : Plain (powValues v w) := by
  refine plain_bind fun base => plain_bind fun exponent => ?_
  split
  · exact plain_ok (kind_ofScalar _)
  · exact plain_matrix _
  · exact plain_error _
  · exact plain_error _

theorem apply_plain (op : Arithmetic) (args : List Value) : Plain (op.apply args) := by
  match args with
  | [v] =>
      cases op with
      | unaryMinus | unaryPlus => exact Operand.unary_plain _ _ _
      | _ => exact plain_error _
  | [v, w] =>
      cases op with
      | multiply => exact multiplyValues_plain v w
      | divide => exact divideValues_plain v w
      | pow => exact powValues_plain v w
      | unaryMinus | unaryPlus => exact plain_error _
      | _ => exact Operand.broadcast_plain _ _ _ _
  | [] | _ :: _ :: _ :: _ => cases op <;> exact plain_error _

end Arithmetic

namespace Relation

/-- An answer that is no function stays so as a truth value. -/
theorem compareNumbers_plain (r : Relation) (v w : Value) : Plain (r.compareNumbers v w) := by
  have answers := Operand.broadcast_plain r.name v w r.compareScalars
  rw [compareNumbers]
  cases h : Operand.broadcast r.name v w r.compareScalars with
  | error fault => exact plain_error fault
  | ok answer =>
      have numeric := answers answer h
      refine plain_ok ?_
      unfold asTruth
      split
      · nofun
      · exact numeric

theorem compare_plain (r : Relation) (v w : Value) : Plain (r.compare v w) := by
  have withNull : Plain (if r.isEquality then .ok (.boolean (r == unequal))
      else r.compareNumbers v w) := plain_ite (plain_ok nofun) (compareNumbers_plain r v w)
  unfold compare
  extract_lets
  split
  · exact plain_ok nofun
  · exact plain_ok nofun
  · exact withNull
  · exact withNull
  · exact compareNumbers_plain r v w

theorem apply_plain (r : Relation) (args : List Value) : Plain (r.apply args) := by
  unfold apply
  split
  · exact compare_plain r _ _
  · exact plain_error _

end Relation

namespace Logic

theorem negate_plain (v : Value) : Plain (negate v) := by
  unfold negate
  split
  · exact Operand.mapElements_plain _ _
  · exact plain_map fun _ => nofun

theorem apply_plain (op : Logic) (args : List Value) : Plain (op.apply args) := by
  unfold apply
  split
  · exact negate_plain _
  · exact plain_bind fun _ => plain_ite (plain_boolean _) (plain_ok nofun)
  · exact plain_bind fun _ => plain_ite (plain_ok nofun) (plain_boolean _)
  · exact plain_bind fun _ => plain_bind fun _ => plain_ok nofun
  · exact plain_error _

end Logic

theorem Elementary.apply_plain (f : Elementary) (args : List Value) : Plain (f.apply args) := by
  unfold apply
  split
  · exact Operand.unary_plain _ _ _
  · exact plain_error _

theorem logarithm_plain (args : List Value) : Plain (logarithm args) := by
  unfold logarithm
  split
  · exact Operand.unary_plain _ _ _
  · exact Operand.broadcast_plain _ _ _ _
  · exact plain_error _

theorem makeComplex_plain (args : List Value) : Plain (makeComplex args) := by
  unfold makeComplex
  split
  · split
    · exact plain_ok nofun
    · exact plain_error _
  · exact plain_map fun _ => nofun
  · exact plain_bind fun _ => plain_bind fun _ => plain_ok nofun
  · exact plain_error _

theorem Value.ctranspose_plain (v : Value) : Plain v.ctranspose := by
  cases v with
  | number _ | boolean _ | complex _ => exact plain_ok nofun
  | matrix m => exact plain_matrix _
  | null | string _ | function _ => exact plain_error _

namespace Construction

theorem transpose_plain (v : Value) : Plain (transpose v) := by
  cases v with
  | number _ | boolean _ | complex _ => exact plain_ok nofun
  | matrix m => exact plain_matrix _
  | null | string _ | function _ => exact plain_error _

theorem nonzeros_plain (v : Value) : Plain (nonzeros v) := by
  unfold nonzeros
  split
  · exact plain_ok nofun
  · exact plain_map fun _ => nofun

end Construction

/-! ## All operations -/

namespace Operation

theorem applyOne_plain {op : Operation} {f : Value → Except EvalError Value}
    (h : ∀ v, Plain (f v)) (args : List Value) : Plain (op.applyOne f args) := by
  unfold applyOne
  split
  · exact h _
  · exact plain_error _

/-- **No standard operation returns a function.** -/
theorem apply_plain (op : Operation) (args : List Value) : Plain (op.apply args) := by
  cases op with
  | arithmetic op => exact op.apply_plain args
  | relation r => exact r.apply_plain args
  | logic op => exact op.apply_plain args
  | elementary f => exact f.apply_plain args
  | log => exact logarithm_plain args
  | complex => exact makeComplex_plain args
  | ctranspose => exact applyOne_plain Value.ctranspose_plain args
  | transpose => exact applyOne_plain Construction.transpose_plain args
  | size => exact applyOne_plain (fun v => @plain_ok (Construction.size v) nofun) args
  | nnz => exact applyOne_plain Construction.nonzeros_plain args
  | matrix | sparse | zeros | identity => exact plain_matrix _

end Operation

/-- The standard library has no functions of a host. -/
theorem sealed_standard : Sealed Library.standard.registry :=
  fun f hf => absurd hf (Array.not_mem_empty f)

/-- **No entry of a sealed namespace returns a function.** -/
theorem Entry.call_plain {registry : Registry} (closed : Sealed registry) (entry : Entry)
    (args : List Value) : Plain (entry.call registry args) := by
  refine plain_ite ?_ (plain_error _)
  unfold perform
  split
  · exact Operation.apply_plain _ _
  · split
    · next f found => exact closed f (Array.mem_of_getElem? found) args
    · exact plain_error _

/-! ## Collecting and selecting -/

theorem Value.collect_plain (items : List Value) : Plain (Value.collect items) :=
  plain_ite (plain_ok nofun) (plain_bind fun _ => plain_matrix _)

/-- The selected part of a value is a number, a matrix or a string. -/
theorem Eval.select_plain (target : Value) (lists : List (List Nat)) :
    Plain (Eval.select target lists) := by
  unfold select
  split
  · exact plain_bind fun part => plain_ite (plain_ofScalar _) (plain_ok nofun)
  · exact plain_map fun _ => nofun
  · exact plain_error _
  · exact plain_error _

end Formula
