import Formula.Proofs.Binary64.Exchange
import Formula.Proofs.Matrix.Exchange
import Formula.Proofs.Matrix.Room
import Formula.Standard.Basic

set_option autoImplicit false

/-! # Products and transposition

The product of two planes has in each row and column the sum of the products of the row of the
first factor and the column of the second one (`sumOfProducts`), in whatever storage the factors
are. Exchanging the factors and transposing them exchanges the two numbers in each product, and
neither their number nor the order of the sum, so the transposed product is the product of the
transposed factors down to the last bit.
-/

namespace Formula.Matrix

open Outcome

variable {a b : Matrix} {rows inner cols row col : Nat}

/-! ## Sums of products -/

/-- The sum of the products of the elements of a row of `a` and of a column of `b`, from the
left. -/
def sumOfProducts (a b : Matrix) (inner row col : Nat) : Scalar :=
  (List.range inner).foldl (fun sum k => sum + a.element [row, k] * b.element [k, col]) .zero

/-- The element in a row and a column of a matrix that is written out. -/
theorem WellFormed.getD_elements (h : a.WellFormed) (hsmall : Shape.count a.shape < Word.size)
    (hshape : a.shape = [rows, cols]) (hrow : row < rows) (hcol : col < cols) :
    a.elements.getD (row * cols + col) .zero = a.element [row, col] := by
  obtain ⟨hdense, hsame⟩ := h.toDense hsmall
  have hplane : a.toDense.Plane rows cols := hdense.plane (hsame.trans hshape)
  calc a.elements.getD (row * cols + col) .zero = a.toDense.element [row, col] :=
        hplane.cell_eq hrow hcol
    _ = a.element [row, col] := h.toDense_element hsmall _

theorem dot_eq (ha : a.WellFormed) (hb : b.WellFormed) (hsmall : Shape.count a.shape < Word.size)
    (hsmall' : Shape.count b.shape < Word.size) (hleft : a.shape = [rows, inner])
    (hright : b.shape = [inner, cols]) (hrow : row < rows) (hcol : col < cols) :
    dot a.elements b.elements inner cols row col = a.sumOfProducts b inner row col := by
  refine List.foldl_ext _ _ _ fun sum k hk => ?_
  rw [List.mem_range] at hk
  rw [ha.getD_elements hsmall hleft hrow hk, hb.getD_elements hsmall' hright hk hcol]

/-- Transposed and exchanged factors have the same sums of products, row and column exchanged. -/
theorem sumOfProducts_transposed {a' b' : Matrix} (ha : Transposed id a a')
    (hb : Transposed id b b') (inner row col : Nat) :
    b'.sumOfProducts a' inner col row = a.sumOfProducts b inner row col := by
  refine List.foldl_ext _ _ _ fun sum k _ => congrArg (sum + ·) ?_
  calc b'.element [col, k] * a'.element [k, row] = b.element [k, col] * a.element [row, k] := by
        rw [ha.element, hb.element]
        rfl
    _ = a.element [row, k] * b.element [k, col] := Scalar.mul_comm _ _

/-! ## The product of two planes -/

/-- The product as a matrix of its elements. -/
def planeProduct (a b : Matrix) (rows inner cols : Nat) : Matrix :=
  ofDense (Dense.tabulate [rows, cols] fun p => a.sumOfProducts b inner (p.getD 0 0) (p.getD 1 0))

theorem wellFormed_planeProduct (hsmall : Shape.count [rows, cols] < Word.size) :
    (a.planeProduct b rows inner cols).WellFormed :=
  Dense.wellFormed_tabulate hsmall _

theorem element_planeProduct (hsmall : Shape.count [rows, cols] < Word.size) (hrow : row < rows)
    (hcol : col < cols) :
    (a.planeProduct b rows inner cols).element [row, col] = a.sumOfProducts b inner row col :=
  (Dense.element_tabulate hsmall _ _).trans (if_pos (Shape.contains_pair.mpr ⟨hrow, hcol⟩))

/-- Factors are read if they have data for all their places. -/
theorem readFactors_eq_ok {x y : Array Scalar} :
    readFactors x y rows inner cols = .ok () ↔
      (rows * cols ≠ 0 → rows * inner ≤ x.size ∧ inner * cols ≤ y.size) := by
  rw [readFactors]
  by_cases hnone : rows * cols = 0
  · rw [if_pos hnone]
    exact iff_of_true rfl fun hsome => absurd hnone hsome
  · rw [if_neg hnone, bind_eq_ok]
    constructor
    · rintro ⟨_, hx, hy⟩ -
      exact ⟨Dense.readAll_eq_ok.mp hx, Dense.readAll_eq_ok.mp hy⟩
    · intro h
      exact ⟨(), Dense.readAll_eq_ok.mpr (h hnone).1, Dense.readAll_eq_ok.mpr (h hnone).2⟩

/-- The product of two planes, computed step by step. -/
theorem product_plane {height : Nat} (hleft : a.shape = [rows, inner])
    (hright : b.shape = [height, cols]) :
    a.product b = if inner ≠ height then .error (.dimension (.product inner height))
      else a.expand >>= fun x => b.expand >>= fun y =>
        Shape.checkedCount [rows, cols] maxElements >>= fun _ =>
          readFactors x y rows inner cols >>= fun _ =>
            (ofData ((Shape.positions [rows, cols]).map fun p =>
              dot x y inner cols (p.getD 0 0) (p.getD 1 0)).toArray [rows, cols]).map .matrix := by
  have hrank : a.rank = 2 := congrArg List.length hleft
  have hrank' : b.rank = 2 := congrArg List.length hright
  have hfactor : (a.factor fun n => (1, n)) = .ok (rows, inner) := by rw [factor, hleft]
  have hfactor' : (b.factor fun n => (n, 1)) = .ok (height, cols) := by rw [factor, hright]
  rw [product, hfactor, hfactor', hrank, hrank']
  show (if inner ≠ height then _ else _) = _
  exact ite_congr rfl (fun _ => rfl) fun _ => rfl

/-- Two planes that fit and whose product is not too large have a product. -/
theorem product_eq (ha : a.WellFormed) (hb : b.WellFormed)
    (hsmall : Shape.count a.shape < Word.size) (hsmall' : Shape.count b.shape < Word.size)
    (hleft : a.shape = [rows, inner]) (hright : b.shape = [inner, cols]) {n : Nat}
    (hcount : Shape.checkedCount [rows, cols] maxElements = .ok n) :
    a.product b = .ok (.matrix (a.planeProduct b rows inner cols)) := by
  obtain ⟨rfl, -, hfew⟩ := Shape.checkedCount_eq_ok hcount
  -- each factor has been written out with an element for each place
  have hread : readFactors a.elements b.elements rows inner cols = .ok () := by
    rw [readFactors_eq_ok, ha.size_elements, hb.size_elements, numel, numel,
      Word.product_of_lt hsmall, Word.product_of_lt hsmall', hleft, hright, Shape.count_pair,
      Shape.count_pair]
    exact fun _ => ⟨Nat.le_refl _, Nat.le_refl _⟩
  have hdata : ((Shape.positions [rows, cols]).map fun p =>
      dot a.elements b.elements inner cols (p.getD 0 0) (p.getD 1 0))
        = (Shape.positions [rows, cols]).map fun p =>
          a.sumOfProducts b inner (p.getD 0 0) (p.getD 1 0) := by
    refine List.map_congr_left fun p hp => ?_
    obtain ⟨row, col, rfl, hrow, hcol⟩ := exists_of_contains_pair (Shape.mem_positions.mp hp)
    exact dot_eq ha hb hsmall hsmall' hleft hright hrow hcol
  rw [product_plane hleft hright, if_neg (not_not.mpr rfl), ha.expand_eq hsmall,
    hb.expand_eq hsmall', hcount]
  show (readFactors a.elements b.elements rows inner cols).bind _ = _
  rw [hread]
  show (ofData (List.map _ _).toArray [rows, cols]).map Value.matrix = _
  rw [hdata]
  show ((Dense.ofData _ _).map ofDense).map Value.matrix = _
  rw [Dense.ofData_positions hfew]
  rfl

/-- What has a product among matrices of two axes fits, and the product is not too large. Unless the
product has no elements, a word counts the positions of both factors. -/
theorem fits_of_product (ha : a.WellFormed) (hb : b.WellFormed) (hrank : a.rank = 2)
    (hrank' : b.rank = 2) {v : Value} (h : a.product b = .ok v) :
    ∃ rows inner cols, a.shape = [rows, inner] ∧ b.shape = [inner, cols] ∧
      Shape.checkedCount [rows, cols] maxElements = .ok (rows * cols) ∧
      (rows * cols ≠ 0 → Shape.count a.shape < Word.size ∧ Shape.count b.shape < Word.size) := by
  obtain ⟨rows, inner, hleft⟩ := List.length_eq_two.mp hrank
  obtain ⟨height, cols, hright⟩ := List.length_eq_two.mp hrank'
  rw [product_plane hleft hright] at h
  by_cases hfit : inner = height
  · subst hfit
    rw [if_neg (not_not.mpr rfl)] at h
    obtain ⟨x, hx, h⟩ := bind_eq_ok.mp h
    obtain ⟨y, hy, h⟩ := bind_eq_ok.mp h
    obtain ⟨n, hcount, h⟩ := bind_eq_ok.mp h
    obtain ⟨_, hread, -⟩ := bind_eq_ok.mp h
    rw [readFactors_eq_ok] at hread
    obtain rfl := eq_elements_of_expand hx
    obtain rfl := eq_elements_of_expand hy
    obtain rfl : n = rows * cols := by
      rw [(Shape.checkedCount_eq_ok hcount).1, Shape.count_pair]
    refine ⟨rows, inner, cols, hleft, hright, hcount, fun hsome => ?_⟩
    -- data for every place are no fewer than the places, so their number has not wrapped
    obtain ⟨hleast, hleast'⟩ := hread hsome
    rw [ha.size_elements] at hleast
    rw [hb.size_elements] at hleast'
    constructor
    · rw [hleft, Shape.count_pair]
      exact Nat.lt_of_le_of_lt hleast (Word.product_lt _)
    · rw [hright, Shape.count_pair]
      exact Nat.lt_of_le_of_lt hleast' (Word.product_lt _)
  · rw [if_pos hfit] at h
    exact nomatch h

/-- A count of two extents that pass the check passes it turned around, if a word counts them. -/
theorem checkedCount_turned {n : Nat} (hcount : Shape.checkedCount [rows, cols] maxElements = .ok n)
    (hcols : cols < Word.size) : ∃ k, Shape.checkedCount [cols, rows] maxElements = .ok k := by
  obtain ⟨rfl, hlimit, hfew⟩ := Shape.checkedCount_eq_ok hcount
  rw [Shape.count_pair] at hlimit hfew
  have hcounted : Shape.Counted [cols, rows] := by
    intro k
    rcases k with _ | _ | k
    · exact (by decide : 1 < Word.size)
    · show cols * 1 < Word.size
      omega
    · show Shape.count (cols :: rows :: List.take k []) < Word.size
      rwa [List.take_nil, Shape.count_pair, Nat.mul_comm]
  refine ⟨_, Shape.checkedCount_of_counted hcounted ?_⟩
  rwa [Shape.count_pair, Nat.mul_comm]

/-! ## Transposed factors -/

/-- The transposed product is the product of the transposed factors, in exchanged order. -/
theorem planeProduct_transposed {a' b' p' : Matrix} (ha : Transposed id a a')
    (hb : Transposed id b b') (hsmall : Shape.count [rows, cols] < Word.size)
    (hp : Transposed id (a.planeProduct b rows inner cols) p') :
    b'.planeProduct a' cols inner rows = p' := by
  have hsmall' : Shape.count [cols, rows] < Word.size := by
    rwa [Shape.count_pair, Nat.mul_comm, ← Shape.count_pair]
  refine (wellFormed_planeProduct hsmall').ext hp.wellFormed hp.storageKind.symm hp.datatype.symm
    hp.shape.symm fun position hin => ?_
  obtain ⟨col, row, rfl, hcol, hrow⟩ := exists_of_contains_pair hin
  rw [element_planeProduct hsmall' hcol hrow, hp.element]
  show _ = (a.planeProduct b rows inner cols).element [row, col]
  rw [element_planeProduct hsmall hrow hcol, sumOfProducts_transposed ha hb]

/-- The product of two matrices of two axes, in whatever storage each of them is, and its transpose:
if both factors and the product can be transposed, then the transposed factors have a product in
exchanged order, and it is the transposed product, each element down to the last bit. A word has to
count the extents of the second factor, and if the first one has no positions, those of the second
one; otherwise the product itself has shown that it does. -/
theorem transpose_product (ha : a.WellFormed) (hb : b.WellFormed)
    (hempty : Shape.count a.shape = 0 → Shape.count b.shape < Word.size)
    (hextents : ∀ extent ∈ b.shape, extent < Word.size)
    (hrank : a.rank = 2) (hrank' : b.rank = 2) {va vb v vt : Value}
    (hv : Operation.apply (.arithmetic .multiply) [.matrix a, .matrix b] = .ok v)
    (hva : Operation.transpose.apply [.matrix a] = .ok va)
    (hvb : Operation.transpose.apply [.matrix b] = .ok vb)
    (hvt : Operation.transpose.apply [v] = .ok vt) :
    Operation.apply (.arithmetic .multiply) [vb, va] = .ok vt := by
  obtain ⟨rows, inner, cols, hleft, hright, hcount, hread⟩ := fits_of_product ha hb hrank hrank' hv
  obtain ⟨a', ha', rfl⟩ := map_eq_ok.mp hva
  obtain ⟨b', hb', rfl⟩ := map_eq_ok.mp hvb
  obtain ⟨hpossible, hat⟩ := ha.transposed keepsZero_id ha'
  obtain ⟨hpossible', hbt⟩ := hb.transposed keepsZero_id hb'
  have hcols : 0 < cols := hpossible'.2 inner cols hright
  -- both factors have columns, so the product is without elements only if there are no rows
  have hsmall : Shape.count a.shape < Word.size ∧ Shape.count b.shape < Word.size := by
    rcases Nat.eq_zero_or_pos rows with rfl | hrows
    · have hnone : Shape.count a.shape = 0 := by rw [hleft, Shape.count_pair, Nat.zero_mul]
      exact ⟨by rw [hnone]; decide, hempty hnone⟩
    · exact hread (Nat.mul_pos hrows hcols).ne'
  have hproduct : v = .matrix (a.planeProduct b rows inner cols) := by
    have := product_eq ha hb hsmall.1 hsmall.2 hleft hright hcount
    exact Except.ok.inj (hv.symm.trans this)
  subst hproduct
  obtain ⟨p', hp', rfl⟩ := map_eq_ok.mp hvt
  have hfew : Shape.count [rows, cols] < Word.size := by
    rw [Shape.count_pair]
    exact (Shape.checkedCount_eq_ok hcount).2.2
  have hpt := ((wellFormed_planeProduct hfew).transposed keepsZero_id hp').2
  have hword : cols < Word.size := hextents cols (by rw [hright]; simp)
  obtain ⟨k, hturned⟩ := checkedCount_turned hcount hword
  have hleft' : b'.shape = [cols, inner] := by rw [hbt.shape, hright]; rfl
  have hright' : a'.shape = [inner, rows] := by rw [hat.shape, hleft]; rfl
  have hproduct := product_eq hbt.wellFormed hat.wellFormed (hbt.count_eq ▸ hsmall.2)
    (hat.count_eq ▸ hsmall.1) hleft' hright' hturned
  rw [planeProduct_transposed hat hbt hfew hpt] at hproduct
  exact hproduct

/-- A sparse matrix of two rows with an imaginary element, and a dense column of real numbers. -/
theorem transpose_product_column :
    let a : Matrix := ⟨.sparse ((Sparse.zeros 2 3).set 1 2 (.complex ⟨0, 1⟩)), none⟩
    let b : Matrix := ⟨.dense ⟨[3, 1], #[.real 1, .real 2, .real 3]⟩, some .number⟩
    a.WellFormed ∧ b.WellFormed ∧ Shape.count b.shape < Word.size ∧
      (∀ extent ∈ b.shape, extent < Word.size) ∧ a.rank = 2 ∧ b.rank = 2 ∧
      ∃ v va vb vt, Operation.apply (.arithmetic .multiply) [.matrix a, .matrix b] = .ok v ∧
        Operation.transpose.apply [.matrix a] = .ok va ∧
        Operation.transpose.apply [.matrix b] = .ok vb ∧
        Operation.transpose.apply [v] = .ok vt ∧
        Operation.apply (.arithmetic .multiply) [vb, va] = .ok vt ∧ vt.shape = [1, 2] := by
  intro a b
  have ha : a.WellFormed := (Sparse.wellFormed_zeros 2 3).set (by decide) (by decide) _
  have hb : b.WellFormed := ⟨rfl, by decide⟩
  have hleft : a.shape = [2, 3] := by decide +kernel
  have hsmall : Shape.count a.shape < Word.size := by decide +kernel
  have hsmall' : Shape.count b.shape < Word.size := by decide
  have hextents : ∀ extent ∈ b.shape, extent < Word.size := by decide
  have hv := product_eq ha hb hsmall hsmall' hleft rfl (n := 2) rfl
  have hwf : (a.planeProduct b 2 3 1).WellFormed := wellFormed_planeProduct (by decide)
  obtain ⟨p, hp, hturned⟩ := hwf.transposeWith keepsZero_id
    ⟨Nat.le_refl 2, fun _ _ hshape => by cases hshape; exact Nat.one_pos⟩
  -- the product is a plane with a column, so it can be transposed
  have hvt : Operation.transpose.apply [.matrix (a.planeProduct b 2 3 1)] = .ok (.matrix p) :=
    congrArg (Except.map Value.matrix) hp
  have hvt' := transpose_product ha hb (fun _ => hsmall') hextents rfl rfl hv rfl rfl hvt
  exact ⟨ha, hb, hsmall', hextents, rfl, rfl, _, _, _, _, hv, rfl, rfl, hvt, hvt', hturned.shape⟩

/-! ## A product that breaks off -/

/-- A sparse matrix of these extents with a single element. -/
structure Single (s : Sparse) (rows cols row col : Nat) (x : Scalar) : Prop where
  wellFormed : s.WellFormed
  rows_eq : s.rows = rows
  cols_eq : s.cols = cols
  cell : ∀ r c, s.cell? r c = if r = row ∧ c = col then some x else none

section single

variable {s : Sparse} {x : Scalar}

theorem single_set (hrow : row < rows) (hcol : col < cols) (hrows : rows < Word.size)
    (hcols : cols < Word.size) (hx : x.isZero = false) :
    Single ((Sparse.zeros rows cols).set row col x) rows cols row col x := by
  have hzeros := Sparse.wellFormed_zeros rows cols
  have hrow' : row + 1 < Word.size := by omega
  have hcol' : col + 1 < Word.size := by omega
  refine ⟨hzeros.set hrow' hcol' x, ?_, ?_, fun r c => ?_⟩
  · rw [hzeros.rows_set hrow' hcol']
    exact Nat.max_eq_left hrow
  · rw [hzeros.cols_set hrow' hcol']
    exact Nat.max_eq_left hcol
  · rw [hzeros.cell?_set hrow' hcol', Sparse.cell?_zeros, Column.kept, hx]
    rfl

theorem Single.transpose (h : Single s rows cols row col x) (hrow : row < rows)
    (hcol : col < cols) : Single (s.transpose id) cols rows col row x := by
  refine ⟨h.wellFormed.transpose fun _ => rfl, h.cols_eq, h.rows_eq, fun r c => ?_⟩
  rw [Sparse.transpose_eq id h.wellFormed, Sparse.cell?_tabulate, h.cell, h.rows_eq, h.cols_eq]
  by_cases hat : r = col ∧ c = row
  · rw [if_pos hat, if_pos hat.symm, if_pos ⟨hat.1 ▸ hcol, hat.2 ▸ hrow⟩]
    rfl
  · have hat' : ¬(c = row ∧ r = col) := fun hat' => hat hat'.symm
    rw [if_neg hat', if_neg hat]
    exact ite_self none

/-- The element has to have a place among those that the number of positions wraps to. -/
theorem Single.expand_eq_ok_iff (h : Single s rows cols row col x) :
    s.expand = .ok s.toDense ↔ Word.wrap (row * cols + col) < Word.product [rows, cols] := by
  rw [h.wellFormed.expand_eq_ok_iff, h.rows_eq, h.cols_eq]
  have hitem : ∀ item, item ∈ s.items id ↔ item = (row, col, x) := by
    rintro ⟨r, c, y⟩
    rw [h.wellFormed.mem_items, h.cell, Prod.mk.injEq, Prod.mk.injEq]
    split
    · next hat => simp [hat, eq_comm]
    · next hat => exact iff_of_false nofun fun hat' => hat ⟨hat'.1, hat'.2.1⟩
  simp only [hitem, forall_eq]

end single

/-- A factor without rows has a product with a sparse matrix of `2 ^ 64 + 2 ^ 32` positions, whose
only element lies among the first of them. In the transposed matrix it lies behind as many places as
the number of positions wraps to, and the product of the transposed factors breaks off. -/
theorem product_transposed_breaks_off :
    let a : Matrix := ofDense (Dense.zeros [0, 2 ^ 32])
    let b : Matrix :=
      ⟨.sparse ((Sparse.zeros (2 ^ 32) (2 ^ 32 + 1)).set 0 1 (.real 1)), none⟩
    a.WellFormed ∧ b.WellFormed ∧ a.rank = 2 ∧ b.rank = 2 ∧
      (∀ extent ∈ a.shape ++ b.shape, extent + 1 < Word.size) ∧
      ∃ v va vb vt cause, Operation.apply (.arithmetic .multiply) [.matrix a, .matrix b] = .ok v ∧
        Operation.transpose.apply [.matrix a] = .ok va ∧
        Operation.transpose.apply [.matrix b] = .ok vb ∧
        Operation.transpose.apply [v] = .ok vt ∧
        Operation.apply (.arithmetic .multiply) [vb, va] = .error (.abort cause) := by
  intro a b
  -- nothing is known of the sparse matrix but its extents and its only element
  obtain ⟨s, hs, hb⟩ : ∃ s : Sparse, Single s (2 ^ 32) (2 ^ 32 + 1) 0 1 (.real 1) ∧
      b = ⟨.sparse s, none⟩ :=
    ⟨_, single_set (by decide) (by decide) (by decide) (by decide) (by decide +kernel), rfl⟩
  clear_value b
  subst hb
  have hleft : a.shape = [0, 2 ^ 32] := rfl
  have hright : Matrix.shape ⟨.sparse s, none⟩ = [2 ^ 32, 2 ^ 32 + 1] := by
    show [s.rows, s.cols] = _
    rw [hs.rows_eq, hs.cols_eq]
  have hv : a.product ⟨.sparse s, none⟩ = .ok (.matrix (ofDense ⟨[0, 2 ^ 32 + 1], #[]⟩)) := by
    have hexpanded : expand ⟨.sparse s, none⟩ = .ok s.toDense.data := by
      show s.expand.map Dense.data = _
      rw [hs.expand_eq_ok_iff.mpr (by decide)]
      rfl
    rw [product_plane hleft hright, if_neg (not_not.mpr rfl), hexpanded]
    rfl
  -- the transposed element is in the first column of the second row
  obtain ⟨cause, hcause⟩ : ∃ cause, (s.transpose id).expand = .error (.abort cause) := by
    refine (s.transpose id).expand_cases.resolve_left fun hok => ?_
    rw [(hs.transpose (by decide) (by decide)).expand_eq_ok_iff] at hok
    exact absurd hok (by decide)
  have htransposed : transpose ⟨.sparse s, none⟩ = .ok ⟨.sparse (s.transpose id), none⟩ :=
    if_neg (by rw [hs.cols_eq]; decide)
  have hextents : ∀ extent ∈ a.shape ++ Matrix.shape ⟨.sparse s, none⟩, extent + 1 < Word.size := by
    rw [hright]
    decide
  refine ⟨Dense.wellFormed_zeros (by decide), hs.wellFormed, rfl, rfl, hextents, _, _, _, _, cause,
    hv, rfl, congrArg (Except.map Value.matrix) htransposed, rfl, ?_⟩
  have hturned : Matrix.shape ⟨.sparse (s.transpose id), none⟩ = [s.cols, s.rows] := rfl
  have hempty : Matrix.shape ⟨.dense ((Dense.zeros [0, 2 ^ 32]).transpose 0 (2 ^ 32) id), none⟩
      = [2 ^ 32, 0] := rfl
  show product _ ⟨.dense _, none⟩ = _
  rw [product_plane hturned hempty, if_neg (not_not.mpr hs.rows_eq)]
  show (Except.map Dense.data (s.transpose id).expand).bind _ = _
  rw [hcause]
  rfl

end Formula.Matrix
