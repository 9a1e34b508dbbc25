import Formula.Matrix.Nested

set_option autoImplicit false

/-! # Dense matrices

A dense matrix holds every element of its shape, in row-major order. It may have any number of
axes; without axes it holds one element. A write outside of the shape makes the matrix grow: the
elements keep their positions and the new ones are zero.

The number of elements that a shape asks for is a count, so it wraps, and data too few for a shape
of `2 ^ 64` elements or more are accepted. Reading or writing behind their end breaks off.
-/

namespace Formula

/-- A shape and its elements in row-major order. -/
structure Dense where
  shape : List Nat
  data : Array Scalar
  deriving Repr, BEq, Inhabited

namespace Dense

/-- The matrix of the given elements and shape. -/
def ofData (data : Array Scalar) (shape : List Nat) : Except EvalError Dense :=
  let count := Word.product shape
  if data.size = count then .ok ⟨shape, data⟩
  else .error (.dimension (.dataLength data.size shape count))

/-- The matrix of zeros. -/
def zeros (shape : List Nat) : Dense := ⟨shape, Array.replicate (Word.product shape) .zero⟩

/-- The matrix whose element at each position is a function of the position. -/
def tabulate (shape : List Nat) (f : List Nat → Scalar) : Dense :=
  ⟨shape, ((Shape.positions shape).map f).toArray⟩

/-- As many elements as memory can be asked for at once: each takes 24 bytes, and the bytes have to
stay below `2 ^ 63`. -/
def capacity : Nat := (0x8000000000000000 - 1) / 24

/-- The element at a place in row-major order. Behind the end of the data it would be zero, but a
matrix is read only where `seek` has found a place inside, or as a whole after `readPlane`. -/
def entry (d : Dense) (place : Nat) : Scalar := d.data.getD place .zero

/-- The place as long as it lies inside the data. -/
def seek (d : Dense) (place : Nat) : Except EvalError Nat :=
  if place < d.data.size then .ok place else .error (.abort (.outside d.data.size place))

/-- Breaks off if there are fewer data than places to be read. -/
def readAll (data : Array Scalar) (count : Nat) : Except EvalError Unit :=
  if count ≤ data.size then .ok () else .error (.abort (.outside data.size data.size))

/-- Breaks off if a vector or a plane has fewer data than places. -/
def readPlane (d : Dense) : Except EvalError Unit :=
  match d.shape with
  | [n] => readAll d.data n
  | [rows, cols] => readAll d.data (rows * cols)
  | _ => .ok ()

/-- The element at a position. -/
def get (d : Dense) (position : List Nat) : Except EvalError Scalar := do
  let place ← Shape.offset d.shape position
  (d.seek place).map d.entry

/-- The matrix of another shape of the same rank that keeps the elements inside both shapes and
has zeros elsewhere. -/
def resize (d : Dense) (shape : List Nat) : Dense :=
  tabulate shape fun p => ((d.get p).toOption).getD .zero

/-- Does writing at the position make the matrix grow? -/
def growsAt (d : Dense) (position : List Nat) : Bool :=
  position.length == d.shape.length && !Shape.contains d.shape position

/-- The matrix with room for the position, as long as it stays within `maxElements`. -/
def grow (d : Dense) (position : List Nat) : Except EvalError Dense :=
  if d.growsAt position then
    let shape := Shape.cover d.shape position
    (Shape.checkedCount shape maxElements).map fun _ => d.resize shape
  else .ok d

/-- Writes one element, growing the matrix to the position. -/
def set (d : Dense) (position : List Nat) (x : Scalar) : Except EvalError Dense := do
  let grown ← d.grow position
  let place ← Shape.offset grown.shape position
  (grown.seek place).map fun place => { grown with data := grown.data.setIfInBounds place x }

/-- Applies a function to every element. -/
def map (d : Dense) (f : Scalar → Scalar) : Dense := ⟨d.shape, d.data.map f⟩

/-- Rows and columns exchanged, `f` applied to every element. -/
def transpose (d : Dense) (rows cols : Nat) (f : Scalar → Scalar) : Dense :=
  { shape := [cols, rows]
    data :=
      ((List.range cols).flatMap fun j =>
        (List.range rows).map fun i => f (d.entry (i * cols + j))).toArray }

/-- The number of elements that are not zero. -/
def nonzeros (d : Dense) : Nat := d.data.countP fun x => !x.isZero

/-- Cuts a list into `n` pieces of `size` items. -/
def pieces {α : Type} (size : Nat) : Nat → List α → List (List α)
  | 0, _ => []
  | n + 1, xs => xs.take size :: pieces size n (xs.drop size)

/-- The texts of elements in the brackets of a shape. -/
def bracketed : List Nat → List String → String
  | [], items => items.headD "[]"
  | [_], items => "[" ++ ", ".intercalate items ++ "]"
  | n :: m :: rest, items =>
      let rows := pieces (Word.product (m :: rest)) n items
      "[" ++ ", ".intercalate (rows.map (bracketed (m :: rest))) ++ "]"

/-- The text of a matrix. -/
def text (d : Dense) : String := bracketed d.shape (d.data.toList.map Scalar.text)

/-- The elements of a shape as a nested sequence. -/
def nested : List Nat → List Scalar → Nested
  | [], items => .scalar (items.headD .zero)
  | [_], items => .seq (items.map .scalar)
  | n :: m :: rest, items =>
      .seq ((pieces (Word.product (m :: rest)) n items).map (nested (m :: rest)))

end Dense

end Formula
