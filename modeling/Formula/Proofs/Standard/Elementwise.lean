import Formula.Proofs.Matrix.Element
import Formula.Proofs.Standard.Relation

set_option autoImplicit false

/-! # Operations on the elements of matrices

An operation on matrices that works element by element means the same as the operation on their
elements: the result is the dense matrix of what it gives for the elements at each position, and
there is one if it gives something for each of them (`Pointwise`). Numbers and matrices take
different paths, so for each operation the function of numbers that it extends to matrices is
compared with what it does with numbers (`Operation.Maps`, `Operation.Broadcasts`).
-/

namespace Formula

open Outcome

/-- A result is put together from an outcome at each position of a shape. -/
structure Pointwise (shape : List Nat) (outcome : List Nat → Except EvalError Scalar)
    (result : Except EvalError Value) : Prop where
  /-- A result is a dense matrix of the shape that has at each position what comes out there. -/
  element : ∀ v, result = .ok v → ∃ d : Dense, v = .matrix (.ofDense d) ∧ d.WellFormed ∧
    d.shape = shape ∧ ∀ position, Shape.contains shape position = true →
      outcome position = .ok (d.element position)
  /-- There is a result if something comes out at each position. -/
  exists_result : (∀ position, Shape.contains shape position = true →
    ∃ x, outcome position = .ok x) → ∃ v, result = .ok v

theorem Pointwise.congr {shape : List Nat} {outcome other : List Nat → Except EvalError Scalar}
    {result : Except EvalError Value} (h : Pointwise shape outcome result)
    (hsame : ∀ position, Shape.contains shape position = true →
      outcome position = other position) : Pointwise shape other result := by
  constructor
  · intro v hv
    obtain ⟨d, rfl, hd, hshape, hall⟩ := h.element v hv
    exact ⟨d, rfl, hd, hshape, fun position hin => hsame position hin ▸ hall position hin⟩
  · intro hall
    exact h.exists_result fun position hin => hsame position hin ▸ hall position hin

/-! ## Gathering -/

/-- The dense matrix of the outcomes at all positions, or the first failure. -/
def gather (shape : List Nat) (outcome : List Nat → Except EvalError Scalar) :
    Except EvalError Value := do
  let data ← (Shape.positions shape).mapM outcome
  (Matrix.ofData data.toArray shape).map .matrix

section gather

variable {shape : List Nat} {outcome : List Nat → Except EvalError Scalar}

end gather

/-! ## Functions of numbers -/

/-- The outcomes for a list of items, one for each position, are gathered. -/
theorem bind_ofData_eq_gather {α : Type} (shape : List Nat) (item : List Nat → α)
    (f : α → Except EvalError Scalar) :
    (((Shape.positions shape).map item).toArray.mapM f >>= fun data =>
        (Matrix.ofData data shape).map Value.matrix)
      = gather shape fun position => f (item position) := by
  unfold gather
  rw [List.mapM_toArray, List.mapM_map]
  show (Except.map List.toArray _).bind _ = ((Shape.positions shape).mapM (f ∘ item)).bind _
  cases (Shape.positions shape).mapM (f ∘ item) <;> rfl

namespace Matrix.WellFormed

variable {m n : Matrix}

/-- A function is applied to the element at each position. -/
theorem mapElements_eq (hm : m.WellFormed) (hsmall : Shape.count m.shape < Word.size)
    (f : Scalar → Except EvalError Scalar) :
    Operand.mapElements m f = gather m.shape fun position => f (m.element position) := by
  rw [Operand.mapElements, hm.expand_eq hsmall, ← bind_ofData_eq_gather,
    ← hm.toList_elements hsmall]
  rfl

/-- A function is applied to the pair of elements at each position. -/
theorem zipWith_eq (hm : m.WellFormed) (hn : n.WellFormed)
    (hsmall : Shape.count m.shape < Word.size) (hshape : m.shape = n.shape)
    (f : Scalar → Scalar → Except EvalError Scalar) :
    (m.zipWith n f).map .matrix
      = gather m.shape fun position => f (m.element position) (n.element position) := by
  have hpairs : (m.elements.zip n.elements).toList
      = (Shape.positions m.shape).map fun position => (m.element position, n.element position) := by
    rw [Array.toList_zip, hm.toList_elements hsmall, hn.toList_elements (hshape ▸ hsmall), ← hshape,
      List.zip_map']
  rw [Matrix.zipWith, if_pos hshape, hm.expand_eq hsmall, hn.expand_eq (hshape ▸ hsmall)]
  refine Eq.trans ?_ (bind_ofData_eq_gather m.shape
    (fun position => (m.element position, n.element position)) fun e => f e.1 e.2)
  rw [← hpairs, Array.toArray_toList]
  exact Outcome.map_of_bind ((m.elements.zip n.elements).mapM fun e => f e.1 e.2) _ _

end Matrix.WellFormed

/-! ## Arguments at a position -/

/-- Is the number not a number? -/
def Scalar.isNaN : Scalar → Bool
  | .real x => x.isNaN
  | .complex _ => false

theorem Operand.ofValue_of_operand? {v : Value} {a : Operand} (h : v.operand? = some a)
    (function : String) : ofValue function v = .ok a := by
  rw [ofValue_eq, h]

namespace Value

theorem toScalar_ofScalar (x : Scalar) : (ofScalar x).toScalar = .ok x := by
  cases x <;> rfl

end Value

namespace Operation

/-- The operation extends a function of two numbers to matrices. -/
structure Broadcasts (op : Operation) (f : Scalar → Scalar → Except EvalError Scalar) : Prop where
  numbers : ∀ {v w x y}, v.operand? = some (.scalar x) → w.operand? = some (.scalar y) →
    op.apply [v, w] >>= Value.toScalar = f x y
  left : ∀ (m : Matrix) {w y}, w.operand? = some (.scalar y) →
    op.apply [.matrix m, w] = Operand.mapElements m fun x => f x y
  right : ∀ {v x} (n : Matrix), v.operand? = some (.scalar x) →
    op.apply [v, .matrix n] = Operand.mapElements n fun y => f x y
  matrices : ∀ m n : Matrix, op.apply [.matrix m, .matrix n] = (m.zipWith n f).map .matrix

theorem exists_map_mapElements (m : Matrix) (g : Scalar → Except EvalError Scalar) :
    ∃ r : Except EvalError Matrix, Operand.mapElements m g = r.map .matrix := by
  refine ⟨m.expand >>= fun elements => elements.mapM g >>= fun data =>
    Matrix.ofData data m.shape, ?_⟩
  rw [Outcome.map_of_bind]
  refine bind_congr fun elements => ?_
  rw [Outcome.map_of_bind]

/-- An operation may broadcast a function and then read the result in another way, as long as it
stays the same as a number. -/
theorem Broadcasts.of_broadcast {op : Operation} {function : String}
    {f : Scalar → Scalar → Except EvalError Scalar} {reading : Value → Value}
    (h : ∀ {v w : Value} {a b : Operand}, v.operand? = some a → w.operand? = some b →
      op.apply [v, w] = (Operand.broadcast function v w f).map reading)
    (hnumber : ∀ {x y z}, f x y = .ok z → (reading (.ofScalar z)).toScalar = .ok z)
    (hmatrix : ∀ m, reading (.matrix m) = .matrix m) : op.Broadcasts f := by
  -- a matrix is not touched by the other reading
  have hread : ∀ r : Except EvalError Matrix,
      (r.map Value.matrix).map reading = r.map Value.matrix := by
    intro r
    cases r with
    | error e => rfl
    | ok m => exact congrArg Except.ok (hmatrix m)
  have helements : ∀ m g, (Operand.mapElements m g).map reading = Operand.mapElements m g := by
    intro m g
    obtain ⟨r, hr⟩ := exists_map_mapElements m g
    rw [hr, hread]
  constructor
  · intro v w x y hv hw
    rw [h hv hw, Operand.broadcast, Operand.ofValue_of_operand? hv, Operand.ofValue_of_operand? hw]
    show ((f x y).map Value.ofScalar).map reading >>= Value.toScalar = f x y
    cases hf : f x y with
    | error e => rfl
    | ok z => exact hnumber hf
  · intro m w y hw
    rw [h rfl hw, Operand.broadcast, Operand.ofValue_of_operand? hw]
    exact helements m fun x => f x y
  · intro v x n hv
    rw [h hv rfl, Operand.broadcast, Operand.ofValue_of_operand? hv]
    exact helements n fun y => f x y
  · intro m n
    rw [h rfl rfl]
    exact hread (m.zipWith n f)

/-- An operation that broadcasts a function and leaves the result as it is. -/
theorem Broadcasts.of_eq {op : Operation} {function : String}
    {f : Scalar → Scalar → Except EvalError Scalar}
    (h : ∀ v w, op.apply [v, w] = Operand.broadcast function v w f) : op.Broadcasts f := by
  have hid : ∀ {v w : Value} {a b : Operand}, v.operand? = some a → w.operand? = some b →
      op.apply [v, w] = (Operand.broadcast function v w f).map id := by
    intro v w a b _ _
    rw [h, Except.map_id, id]
  exact .of_broadcast hid (fun _ => Value.toScalar_ofScalar _) fun m => rfl

end Operation

end Formula
