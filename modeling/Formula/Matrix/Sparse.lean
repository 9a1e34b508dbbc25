import Formula.Matrix.Dense

set_option autoImplicit false

/-! # Sparse matrices

A sparse matrix has rows and columns and holds only its nonzero elements, column by column, in
compressed form: the elements (`values`), their rows (`rowIndex`), and for each column the place
where it starts (`colPtr`, with one more entry for the end). Inside a column the rows increase.

An element is looked for by binary search in its column. Writing one puts it into both arrays or
takes it out of them, and moves the starts of the later columns. Transposition counts the elements
of every row and deals them out.
-/

namespace Formula

/-- A matrix of two dimensions in compressed columns. -/
@[ext]
structure Sparse where
  rows : Nat
  cols : Nat
  values : Array Scalar
  rowIndex : Array Nat
  colPtr : Array Nat
  deriving Repr, BEq, Inhabited

namespace Sparse

/-- The place where a column starts; behind the last column, the place where that one ends. -/
def start (s : Sparse) (col : Nat) : Nat := s.colPtr.getD col 0

/-- The places of the elements of a column. -/
def places (s : Sparse) (col : Nat) : List Nat :=
  List.range' (s.start col) (s.start (col + 1) - s.start col)

/-- The row of the element at a place. -/
def row (s : Sparse) (place : Nat) : Nat := s.rowIndex.getD place 0

/-- The element at a place. -/
def value (s : Sparse) (place : Nat) : Scalar := s.values.getD place .zero

/-- The matrix of zeros. How many pointers a matrix can have is not asked here, nor where others are
made; `zeros?` and `transpose?` ask. -/
def zeros (rows cols : Nat) : Sparse := ⟨rows, cols, #[], #[], Array.replicate (cols + 1) 0⟩

/-- The number of elements held. -/
def nonzeros (s : Sparse) : Nat := s.values.size

/-! ## Conversion -/

/-- Appends an element of the column to be filled next, unless it is zero. -/
def append (s : Sparse) (row : Nat) (x : Scalar) : Sparse :=
  if x.isZero then s else { s with values := s.values.push x, rowIndex := s.rowIndex.push row }

/-- The column ends behind the elements held so far. -/
def close (s : Sparse) (col : Nat) : Sparse :=
  { s with colPtr := s.colPtr.setIfInBounds (col + 1) s.values.size }

/-- The nonzero elements of a dense matrix; a vector becomes one column. -/
def ofDense (d : Dense) : Except EvalError Sparse :=
  match d.shape with
  | [rows] => .ok (planar rows 1)
  | [rows, cols] => .ok (planar rows cols)
  | shape => .error (.dimension (.sparseRank shape))
where
  /-- Fills one column. -/
  fill (rows cols : Nat) (s : Sparse) (col : Nat) : Sparse :=
    let filled := (List.range rows).foldl (fun s row => s.append row (d.entry (row * cols + col))) s
    filled.close col
  /-- The nonzero elements of the data in rows and columns. -/
  planar (rows cols : Nat) : Sparse :=
    (List.range cols).foldl (fill rows cols) (zeros rows cols)

/-- Every element, zeros included. Places are counts, so in a matrix of `2 ^ 64` elements or more
two of them can be the same; the later element stays. An element that has no place among the data is
left out, see `expand`. -/
def toDense (s : Sparse) : Dense :=
  let put (col : Nat) (data : Array Scalar) (place : Nat) : Array Scalar :=
    data.setIfInBounds (Word.wrap (s.row place * s.cols + col)) (s.value place)
  let write (data : Array Scalar) (col : Nat) : Array Scalar :=
    (s.places col).foldl (put col) data
  { shape := [s.rows, s.cols]
    data := (List.range s.cols).foldl write (Dense.zeros [s.rows, s.cols]).data }

/-- The first place behind the end of the expanded data that an element would be written to. Places
wrap, and so does the number of the data. -/
def stray? (s : Sparse) : Option Nat :=
  let targets := (List.range s.cols).flatMap fun col =>
    (s.places col).map fun place => Word.wrap (s.row place * s.cols + col)
  targets.find? fun target => Word.product [s.rows, s.cols] ≤ target

/-- Writes every element to its place. Breaks off at an element that has none among the data. -/
def expand (s : Sparse) : Except EvalError Dense :=
  match s.stray? with
  | some place => .error (.abort (.outside (Word.product [s.rows, s.cols]) place))
  | none => .ok s.toDense

/-! ## Searching -/

/-- The first place between `low` and `high` whose row is not below `row`, or `high`. The rows
between them increase, so the part of them in question is halved at every step. -/
def search (rows : Array Nat) (row low high : Nat) : Nat :=
  if low < high then
    let middle := (low + high) / 2
    if rows.getD middle 0 < row then search rows row (middle + 1) high
    else search rows row low middle
  else low
termination_by high - low

/-- Where an element is held, or would be put. -/
inductive Seat where
  | taken (place : Nat)
  | free (place : Nat)
  deriving Repr, DecidableEq

/-- The seat of a row in a column. -/
def seat (s : Sparse) (row col : Nat) : Seat :=
  let stop := s.start (col + 1)
  let place := search s.rowIndex row (s.start col) stop
  if place < stop ∧ s.row place = row then .taken place else .free place

/-- The element in a row and a column. -/
def get (s : Sparse) (row col : Nat) : Except EvalError Scalar :=
  if row < s.rows ∧ col < s.cols then
    match s.seat row col with
    | .taken place => .ok (s.value place)
    | .free _ => .ok .zero
  else .error (.index (.sparseOutside (Word.succ row) (Word.succ col) s.rows s.cols))

/-! ## Writing -/

/-- The matrix grown to a row and a column. -/
def reach (s : Sparse) (row col : Nat) : Sparse :=
  let last := s.colPtr.back?.getD 0
  { s with
    rows := if row < s.rows then s.rows else Word.succ row
    cols := if col < s.cols then s.cols else Word.succ col
    colPtr :=
      if col < s.cols then s.colPtr
      else s.colPtr ++ Array.replicate (col + 2 - s.colPtr.size) last }

/-- The starts of the columns, moved behind a column. -/
def shift (s : Sparse) (col : Nat) (move : Nat → Nat) : Array Nat :=
  s.colPtr.mapIdx fun k place => if col < k then move place else place

/-- Puts an element of a column into a place. -/
def insert (s : Sparse) (place row col : Nat) (x : Scalar) : Sparse :=
  { s with
    values := s.values.insertIdxIfInBounds place x
    rowIndex := s.rowIndex.insertIdxIfInBounds place row
    colPtr := s.shift col (· + 1) }

/-- Takes the element of a column at a place out. -/
def remove (s : Sparse) (place col : Nat) : Sparse :=
  { s with
    values := s.values.eraseIdxIfInBounds place
    rowIndex := s.rowIndex.eraseIdxIfInBounds place
    colPtr := s.shift col (· - 1) }

/-- Writes one element of a column that is there: zero removes it, anything else is put into its
row. -/
def write (s : Sparse) (row col : Nat) (x : Scalar) : Sparse :=
  match s.seat row col with
  | .taken place =>
      if x.isZero then s.remove place col
      else { s with values := s.values.setIfInBounds place x }
  | .free place => if x.isZero then s else s.insert place row col x

/-- Writes one element, growing the matrix to its row and column. -/
def set (s : Sparse) (row col : Nat) (x : Scalar) : Sparse := (s.reach row col).write row col x

/-! ## Transposition -/

/-- The number of elements in each row, noted one entry behind the row. There is one entry more than
there are rows; `transpose?` asks whether a word can count them. -/
def rowCounts (s : Sparse) : Array Nat :=
  s.rowIndex.foldl (fun counts row => counts.modify (row + 1) (· + 1))
    (Array.replicate (s.rows + 1) 0)

/-- Adds to each of the first `n` entries behind the first one the entries in front of it. -/
def sums (n : Nat) (counts : Array Nat) : Array Nat :=
  (List.range n).foldl (fun sums i => sums.modify (i + 1) (· + sums.getD i 0)) counts

/-- Elements dealt out to the rows they lie in: the next place of every row, and the elements with
their columns. -/
structure Deal where
  next : Array Nat
  values : Array Scalar
  colIndex : Array Nat

/-- Deals one element out. -/
def Deal.put (dealt : Deal) (row col : Nat) (x : Scalar) : Deal :=
  let place := dealt.next.getD row 0
  { next := dealt.next.modify row (· + 1)
    values := dealt.values.setIfInBounds place x
    colIndex := dealt.colIndex.setIfInBounds place col }

/-- Rows and columns exchanged, `f` applied to every element held. The elements are dealt out from
the first column to the last, so every row gets them in order. -/
def transpose (s : Sparse) (f : Scalar → Scalar) : Sparse :=
  let starts := sums s.rows s.rowCounts
  let blank : Deal :=
    { next := starts
      values := Array.replicate s.nonzeros .zero
      colIndex := Array.replicate s.nonzeros 0 }
  let dealColumn (dealt : Deal) (col : Nat) : Deal :=
    (s.places col).foldl (fun dealt place => dealt.put (s.row place) col (f (s.value place))) dealt
  let dealt := (List.range s.cols).foldl dealColumn blank
  { rows := s.cols
    cols := s.rows
    values := dealt.values
    rowIndex := dealt.colIndex
    colPtr := starts }

end Sparse

end Formula
