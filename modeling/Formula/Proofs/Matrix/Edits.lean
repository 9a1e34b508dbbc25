import Formula.Proofs.Binary64
import Formula.Proofs.Matrix.Transpose
import Mathlib.Data.Set.Card

set_option autoImplicit false

/-! # Runs of edits

A sparse matrix begins as zeros or as the copy of a dense one, and is then edited by writes and
transpositions. Every edit keeps it well formed, so it is well formed after every step of a run.
A well-formed matrix holds exactly the positions at which reading gives a nonzero number.
-/

namespace Formula.Sparse

/-! ## Positions that are not zero -/

/-- Reading a position gives a number that is not zero. -/
def NonzeroAt (s : Sparse) (position : Nat × Nat) : Prop :=
  ∃ x, s.get position.1 position.2 = .ok x ∧ x.isZero = false

/-- The positions of the elements held, column by column. -/
def positions (s : Sparse) : List (Nat × Nat) :=
  (s.items id).map fun item => (item.1, item.2.1)

theorem WellFormed.mem_positions {s : Sparse} (h : s.WellFormed) (row col : Nat) :
    (row, col) ∈ s.positions ↔ ∃ x, s.cell? row col = some x := by
  have hsorted := fun {col} (hcol : col < s.cols) => (h.canonical hcol).sorted
  simp only [positions, items, List.mem_map, List.mem_flatMap, List.mem_range]
  constructor
  · rintro ⟨item, ⟨c, hc, e, he, rfl⟩, heq⟩
    obtain ⟨rfl, rfl⟩ := Prod.mk.inj heq
    exact ⟨e.2, ((hsorted hc).lookup_eq_some_iff e.1 e.2).mpr he⟩
  · rintro ⟨x, hx⟩
    have hcol : col < s.cols := (h.lt_of_cell? hx).2
    have hmem := ((hsorted hcol).lookup_eq_some_iff row x).mp hx
    exact ⟨(row, col, x), ⟨col, hcol, (row, x), hmem, rfl⟩,
      rfl⟩

theorem WellFormed.nodup_positions {s : Sparse} (h : s.WellFormed) : s.positions.Nodup := by
  have heq : s.positions
      = (List.range s.cols).flatMap fun col => (s.column col).map fun e => (e.1, col) := by
    simp [positions, items, List.map_flatMap, Function.comp_def]
  rw [heq, List.nodup_flatMap]
  refine ⟨fun col hcol => ?_, ?_⟩
  · -- the rows of a column differ
    refine List.Pairwise.map _ ?_ (h.canonical (List.mem_range.mp hcol)).sorted
    intro e e' hlt heq
    exact absurd (Prod.mk.inj heq).1 (Nat.ne_of_lt hlt)
  · refine List.Pairwise.imp ?_ (List.nodup_range (n := s.cols))
    intro col col' hne
    refine List.disjoint_left.mpr fun position hmem hmem' => ?_
    obtain ⟨e, -, rfl⟩ := List.mem_map.mp hmem
    obtain ⟨e', -, heq⟩ := List.mem_map.mp hmem'
    exact hne (Prod.mk.inj heq).2.symm

/-- Reading gives a nonzero number where an element is held and nowhere else. -/
theorem WellFormed.nonzeroAt_iff {s : Sparse} (h : s.WellFormed) (row col : Nat) :
    s.NonzeroAt (row, col) ↔ ∃ x, s.cell? row col = some x := by
  constructor
  · rintro ⟨x, hget, hx⟩
    -- only inside is anything read
    have hinside : row < s.rows ∧ col < s.cols := by
      by_cases hinside : row < s.rows ∧ col < s.cols
      · exact hinside
      · rw [get, if_neg hinside] at hget
        cases hget
    rw [h.get_eq hinside.1 hinside.2] at hget
    cases hcell : s.cell? row col with
    | some y => exact ⟨y, rfl⟩
    | none =>
        rw [hcell] at hget
        cases hget
        rw [Option.getD_none, Scalar.isZero_zero] at hx
        cases hx
  · rintro ⟨x, hx⟩
    obtain ⟨hrow, hcol⟩ := h.lt_of_cell? hx
    refine ⟨x, ?_, h.nonzero_of_cell? hx⟩
    rw [h.get_eq hrow hcol, hx, Option.getD_some]

/-- The number of elements held is the number of positions that are not zero. -/
theorem WellFormed.encard_nonzeroAt {s : Sparse} (h : s.WellFormed) :
    {position | s.NonzeroAt position}.encard = s.nonzeros := by
  have hset : {position | s.NonzeroAt position} = (s.positions.toFinset : Set (Nat × Nat)) := by
    ext ⟨row, col⟩
    rw [Set.mem_ofPred_eq, List.coe_toFinset, Set.mem_ofPred_eq, h.nonzeroAt_iff, h.mem_positions]
  have hcard : s.positions.toFinset.card = s.nonzeros := by
    rw [List.toFinset_card_of_nodup h.nodup_positions, positions, List.length_map,
      length_items id h.toCompressed]
    rfl
  rw [hset, Set.encard_coe_eq_coe_finsetCard, hcard]

/-! ## Edits -/

/-- One edit of a sparse matrix. -/
inductive Edit where
  | set (row col : Nat) (x : Scalar)
  | transpose (conjugate : Bool)

namespace Edit

/-- The matrix after an edit. -/
def apply (s : Sparse) : Edit → Sparse
  | set row col x => s.set row col x
  | transpose conjugate => s.transpose (if conjugate then Scalar.conj else id)

/-- The extents and the number of pointers that a write asks for are counts below `2 ^ 64`. How many
pointers a transposition asks for is left open, as it is for the matrix of zeros at the beginning:
`transpose?` and `zeros?` say when there are too many. -/
def Fits : Edit → Prop
  | set row col _ => row + 1 < Word.size ∧ col + 2 < Word.size
  | transpose _ => True

end Edit

/-- Transposition keeps a matrix well formed if the function keeps numbers that are not zero. -/
theorem WellFormed.transpose {s : Sparse} (h : s.WellFormed) {f : Scalar → Scalar}
    (hf : ∀ x, (f x).isZero = x.isZero) : (s.transpose f).WellFormed := by
  rw [transpose_eq f h]
  refine wellFormed_tabulate s.cols s.rows fun row _ col _ x hx => ?_
  obtain ⟨y, hy, rfl⟩ := Option.map_eq_some_iff.mp hx
  rw [hf]
  exact h.nonzero_of_cell? hy

theorem WellFormed.apply {s : Sparse} (h : s.WellFormed) {e : Edit} (hfits : e.Fits) :
    (e.apply s).WellFormed := by
  cases e with
  | set row col x => exact h.set hfits.1 (Nat.lt_of_succ_lt hfits.2) x
  | transpose conjugate =>
      refine h.transpose fun x => ?_
      cases conjugate with
      | true => exact Scalar.isZero_conj x
      | false => rfl

/-- The matrices of a run: the first one and the one after each edit. -/
def states (s : Sparse) : List Edit → List Sparse
  | [] => [s]
  | e :: edits => s :: states (e.apply s) edits

/-- Every matrix of a run that begins well formed is well formed. -/
theorem WellFormed.of_mem_states {s t : Sparse} (h : s.WellFormed) {edits : List Edit}
    (hfits : ∀ e ∈ edits, e.Fits) (ht : t ∈ states s edits) : t.WellFormed := by
  induction edits generalizing s with
  | nil =>
      rw [List.mem_singleton.mp ht]
      exact h
  | cons e edits ih =>
      rcases List.mem_cons.mp ht with rfl | ht
      · exact h
      · exact ih (h.apply (hfits e List.mem_cons_self))
          (fun e he => hfits e (List.mem_cons_of_mem _ he)) ht

/-! ## Beginnings -/

/-- What a sparse matrix is made from. -/
inductive Origin where
  | zeros (rows cols : Nat)
  | dense (d : Dense)

namespace Origin

/-- The first matrix of a run. -/
def build : Origin → Except EvalError Sparse
  | zeros rows cols => .ok (Sparse.zeros rows cols)
  | dense d => ofDense d

/-- A dense matrix has one or two axes. -/
def Planar : Origin → Prop
  | zeros _ _ => True
  | dense d => d.shape.length = 1 ∨ d.shape.length = 2

end Origin

theorem wellFormed_planar (d : Dense) (rows cols : Nat) :
    (ofDense.planar d rows cols).WellFormed := by
  rw [planar_eq]
  exact wellFormed_tabulate rows cols fun row _ col _ x hx => (Column.kept_eq_some_iff.mp hx).2

/-- A planar beginning gives a well-formed matrix. -/
theorem Origin.exists_wellFormed {origin : Origin} (h : origin.Planar) :
    ∃ s, origin.build = .ok s ∧ s.WellFormed := by
  cases origin with
  | zeros rows cols => exact ⟨_, rfl, wellFormed_zeros rows cols⟩
  | dense d =>
      obtain ⟨shape, data⟩ := d
      rcases h with h | h
      · obtain ⟨rows, rfl⟩ := List.length_eq_one_iff.mp h
        exact ⟨_, rfl, wellFormed_planar _ rows 1⟩
      · obtain ⟨rows, cols, rfl⟩ := List.length_eq_two.mp h
        exact ⟨_, rfl, wellFormed_planar _ rows cols⟩

/-- Whatever a sparse matrix is made from and however it is edited, it is well formed after every
step and holds as many elements as there are positions that are not zero. -/
theorem edits_wellFormed {origin : Origin} (horigin : origin.Planar) {edits : List Edit}
    (hfits : ∀ e ∈ edits, e.Fits) :
    ∃ s, origin.build = .ok s ∧ ∀ t ∈ states s edits,
      t.WellFormed ∧ {position | t.NonzeroAt position}.encard = t.nonzeros := by
  obtain ⟨s, hbuild, hs⟩ := Origin.exists_wellFormed horigin
  refine ⟨s, hbuild, fun t ht => ?_⟩
  have hwf : t.WellFormed := hs.of_mem_states hfits ht
  exact ⟨hwf, hwf.encard_nonzeroAt⟩

/-- A vector is written to beyond its end, transposed, and loses an element. -/
theorem edits_wellFormed_vector :
    let origin := Origin.dense ⟨[2], #[.real 1, .zero]⟩
    let edits := [Edit.set 1 3 (.real 2), .transpose true, .set 0 0 .zero]
    origin.Planar ∧ (∀ e ∈ edits, e.Fits) ∧
      ∃ s, origin.build = .ok s ∧ ∀ t ∈ states s edits,
        t.WellFormed ∧ {position | t.NonzeroAt position}.encard = t.nonzeros := by
  intro origin edits
  have horigin : origin.Planar := Or.inl rfl
  have hfits : ∀ e ∈ edits, e.Fits := by
    simp [edits, Edit.Fits, Word.size]
  exact ⟨horigin, hfits, edits_wellFormed horigin hfits⟩

end Formula.Sparse
