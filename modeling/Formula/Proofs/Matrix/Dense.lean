import Formula.Proofs.Matrix.Count
import Formula.Proofs.Matrix.Place
import Formula.Proofs.Outcome

set_option autoImplicit false

/-! # Dense matrices of any rank

A well-formed dense matrix holds one element for each position of its shape, as many as a word
counts. It is described by `element`, which gives the element at a position and zero outside: two
well-formed matrices of one shape with the same elements are the same matrix. Seen through
`element`, growth changes nothing, and a write changes one position.
-/

namespace Formula

/-! ## Covering a position -/

namespace Shape

/-- A shape covers its own positions. -/
theorem cover_of_contains {shape position : List Nat} (h : contains shape position = true) :
    cover shape position = shape := by
  rw [contains_iff] at h
  induction h with
  | nil => rfl
  | @cons i d is ds hi _ ih =>
      have hnext : Word.satSucc i ≤ d := Nat.le_trans (Nat.min_le_left _ _) hi
      show max d (Word.satSucc i) :: cover ds is = d :: ds
      rw [ih, Nat.max_eq_left hnext]

theorem length_cover {shape position : List Nat} (h : position.length = shape.length) :
    (cover shape position).length = shape.length := by
  rw [cover, List.length_zipWith, h, Nat.min_self]

/-- A shape that covers another one has all its positions. -/
theorem contains_cover {shape position inside : List Nat}
    (hrank : position.length = shape.length) (h : contains shape inside = true) :
    contains (cover shape position) inside = true := by
  rw [contains_iff] at h ⊢
  induction h generalizing position with
  | nil =>
      rw [List.length_nil, List.length_eq_zero_iff] at hrank
      subst hrank
      exact .nil
  | cons hi _ ih =>
      cases position with
      | nil => exact nomatch hrank
      | cons j js =>
          exact .cons (Nat.lt_of_lt_of_le hi (Nat.le_max_left _ _)) (ih (Nat.succ.inj hrank))

/-- Below the last count nothing is cut off where a shape covers a position. -/
theorem cover_eq {shape position : List Nat} (hbelow : ∀ i ∈ position, i < Word.last) :
    cover shape position = List.zipWith (fun d i => max d (i + 1)) shape position := by
  induction shape generalizing position with
  | nil => rfl
  | cons d ds ih =>
      cases position with
      | nil => rfl
      | cons i is =>
          obtain ⟨hi, his⟩ := List.forall_mem_cons.mp hbelow
          have hnext : Word.satSucc i = i + 1 := Nat.min_eq_left hi
          show max d (Word.satSucc i) :: cover ds is = _
          rw [hnext, ih his]
          rfl

/-- The shapes that a shape fits into after it has grown to a position are those that it did fit
into and that have the position. -/
theorem cover_within {shape position bound : List Nat} (hrank : position.length = shape.length)
    (hbelow : ∀ i ∈ position, i < Word.last) :
    List.Forall₂ (· ≤ ·) (cover shape position) bound
      ↔ List.Forall₂ (· ≤ ·) shape bound ∧ contains bound position = true := by
  rw [cover_eq hbelow, contains_iff]
  clear hbelow
  induction shape generalizing position bound with
  | nil =>
      rw [List.length_nil, List.length_eq_zero_iff] at hrank
      subst hrank
      cases bound <;> simp
  | cons d ds ih =>
      cases position with
      | nil => exact nomatch hrank
      | cons i is =>
          cases bound with
          | nil => simp
          | cons b bs =>
              -- the claim for one axis: a maximum is below the bound if both of its arguments are
              have hfirst : max d (i + 1) ≤ b ↔ d ≤ b ∧ i < b := Nat.max_le
              simp only [List.zipWith_cons_cons, List.forall₂_cons, hfirst, ih (Nat.succ.inj hrank)]
              constructor
              · rintro ⟨⟨hd, hi⟩, hds, his⟩
                exact ⟨⟨hd, hds⟩, hi, his⟩
              · rintro ⟨⟨hd, hds⟩, hi, his⟩
                exact ⟨⟨hd, hi⟩, hds, his⟩

theorem within_refl (shape : List Nat) : List.Forall₂ (· ≤ ·) shape shape :=
  List.forall₂_same.mpr fun d _ => Nat.le_refl d

/-- Below the last count a shape has a position that it covers. -/
theorem contains_cover_self {shape position : List Nat} (hrank : position.length = shape.length)
    (hbelow : ∀ i ∈ position, i < Word.last) :
    contains (cover shape position) position = true :=
  ((cover_within hrank hbelow).mp (within_refl _)).2

end Shape

namespace Dense

open Outcome

/-- A dense matrix holds an element for each position of its shape, as many as a word counts. -/
structure WellFormed (d : Dense) : Prop where
  size : d.data.size = Shape.count d.shape
  small : Shape.count d.shape < Word.size

/-- The element at a position, zero outside of the shape. -/
def element (d : Dense) (position : List Nat) : Scalar := ((d.get position).toOption).getD .zero

variable {d : Dense}

/-! ## Reading -/

theorem seek_eq {place : Nat} (h : place < d.data.size) : d.seek place = .ok place := if_pos h

theorem seek_eq_ok {place place' : Nat} (h : d.seek place = .ok place') :
    place < d.data.size ∧ place' = place := by
  rw [seek] at h
  split at h
  · next hlt =>
      cases h
      exact ⟨hlt, rfl⟩
  · cases h

theorem readAll_eq_ok {data : Array Scalar} {count : Nat} :
    readAll data count = .ok () ↔ count ≤ data.size := by
  rw [readAll]
  split
  · next hle => exact iff_of_true rfl hle
  · next hlt => exact iff_of_false nofun hlt

/-- A matrix with all its data can be read as a whole. -/
theorem WellFormed.readPlane_eq (h : d.WellFormed) : d.readPlane = .ok () := by
  have hsize := h.size
  rw [readPlane]
  split
  · next n hshape =>
      rw [hshape, show Shape.count [n] = n from Nat.mul_one n] at hsize
      exact readAll_eq_ok.mpr (Nat.le_of_eq hsize.symm)
  · next rows cols hshape =>
      rw [hshape, Shape.count_pair] at hsize
      exact readAll_eq_ok.mpr (Nat.le_of_eq hsize.symm)
  · rfl

/-- The steps of reading an element. -/
theorem get_steps {position : List Nat} {x : Scalar} (hget : d.get position = .ok x) :
    ∃ place, Shape.offset d.shape position = .ok place ∧ place < d.data.size ∧
      x = d.entry place := by
  obtain ⟨place, hoffset, hget⟩ := bind_eq_ok.mp hget
  obtain ⟨place', hseek, rfl⟩ := map_eq_ok.mp hget
  obtain ⟨hplace, rfl⟩ := seek_eq_ok hseek
  exact ⟨place', hoffset, hplace, rfl⟩

/-- Reading outside fails. -/
theorem get_outside {position : List Nat} (h : ¬Shape.contains d.shape position = true) :
    ∃ fault, d.get position = .error (.index fault) := by
  obtain ⟨fault, heq⟩ := Shape.offset_outside h
  rw [get, heq]
  exact ⟨fault, rfl⟩

theorem element_outside {position : List Nat} (h : ¬Shape.contains d.shape position = true) :
    d.element position = .zero := by
  obtain ⟨fault, heq⟩ := get_outside h
  rw [element, heq]
  rfl

/-- The element number `n`, if there are so many, is the one at the position number `n`. -/
theorem get_of_getElem? {position : List Nat} {n : Nat} (hn : n < Word.size)
    (hdata : n < d.data.size) (h : (Shape.positions d.shape)[n]? = some position) :
    d.get position = .ok (d.entry n) := by
  have hmem := List.mem_of_getElem? h
  rw [get, Shape.offset_eq (Shape.mem_positions.mp hmem), Shape.place_of_getElem? h,
    Word.wrap_of_lt hn]
  show (d.seek n).map d.entry = _
  rw [seek_eq hdata]
  rfl

theorem WellFormed.place_lt_size (h : d.WellFormed) {position : List Nat}
    (hin : Shape.contains d.shape position = true) :
    Shape.place d.shape position < d.data.size := by
  rw [h.size]
  exact Shape.place_lt hin

/-- The offset of a position inside is its place. -/
theorem WellFormed.offset_eq_place (h : d.WellFormed) {position : List Nat}
    (hin : Shape.contains d.shape position = true) :
    Shape.offset d.shape position = .ok (Shape.place d.shape position) := by
  rw [Shape.offset_eq hin, Word.wrap_of_lt (Nat.lt_trans (Shape.place_lt hin) h.small)]

theorem WellFormed.get_eq (h : d.WellFormed) {position : List Nat}
    (hin : Shape.contains d.shape position = true) :
    d.get position = .ok (d.entry (Shape.place d.shape position)) :=
  get_of_getElem? (Nat.lt_trans (Shape.place_lt hin) h.small) (h.place_lt_size hin)
    (Shape.getElem?_positions hin)

theorem WellFormed.element_eq (h : d.WellFormed) {position : List Nat}
    (hin : Shape.contains d.shape position = true) :
    d.element position = d.entry (Shape.place d.shape position) := by
  rw [element, h.get_eq hin]
  rfl

/-- The data are the elements at all places in turn. -/
theorem toList_data_eq (d : Dense) : d.data.toList = (List.range d.data.size).map d.entry := by
  refine List.ext_getElem (by simp) fun n hn _ => ?_
  rw [Array.length_toList] at hn
  simp [entry, hn]

/-- The data are the elements at all positions in turn. -/
theorem WellFormed.toList_data (h : d.WellFormed) :
    d.data.toList = (Shape.positions d.shape).map d.element := by
  rw [toList_data_eq, h.size, ← Shape.map_place_positions, List.map_map]
  refine List.map_congr_left fun position hposition => ?_
  exact (h.element_eq (Shape.mem_positions.mp hposition)).symm

/-- Well-formed matrices of one shape with the same elements are the same. -/
theorem WellFormed.ext {e : Dense} (hd : d.WellFormed) (he : e.WellFormed)
    (hshape : d.shape = e.shape)
    (h : ∀ position, Shape.contains d.shape position = true →
      d.element position = e.element position) : d = e := by
  have hdata : d.data = e.data := by
    refine Array.toList_inj.mp ?_
    rw [hd.toList_data, he.toList_data, ← hshape]
    exact List.map_congr_left fun position hposition =>
      h position (Shape.mem_positions.mp hposition)
  obtain ⟨shape, data⟩ := d
  obtain ⟨shape', data'⟩ := e
  exact congr (congrArg Dense.mk hshape) hdata

/-! ## Matrices given by their elements -/

theorem wellFormed_tabulate {shape : List Nat} (hsmall : Shape.count shape < Word.size)
    (f : List Nat → Scalar) : (tabulate shape f).WellFormed := by
  refine ⟨?_, hsmall⟩
  rw [tabulate, List.size_toArray, List.length_map, Shape.length_positions]

theorem element_tabulate {shape : List Nat} (hsmall : Shape.count shape < Word.size)
    (f : List Nat → Scalar) (position : List Nat) :
    (tabulate shape f).element position
      = if Shape.contains shape position = true then f position else .zero := by
  by_cases hin : Shape.contains shape position = true
  · rw [(wellFormed_tabulate hsmall f).element_eq hin, if_pos hin]
    have hlisted := Shape.getElem?_positions hin
    simp [tabulate, entry, hlisted]
  · rw [if_neg hin]
    exact element_outside hin

/-- The matrix made of a function's values at all positions. -/
theorem ofData_positions {shape : List Nat} (hsmall : Shape.count shape < Word.size)
    (f : List Nat → Scalar) :
    ofData ((Shape.positions shape).map f).toArray shape = .ok (tabulate shape f) := by
  have hsize : ((Shape.positions shape).map f).toArray.size = Word.product shape := by
    rw [List.size_toArray, List.length_map, Shape.length_positions, Word.product_of_lt hsmall]
  exact ofData_eq_ok_iff_size.mpr ⟨hsize, rfl⟩

theorem wellFormed_zeros {shape : List Nat} (hsmall : Shape.count shape < Word.size) :
    (zeros shape).WellFormed := by
  refine ⟨?_, hsmall⟩
  rw [zeros, Array.size_replicate, Word.product_of_lt hsmall]

theorem WellFormed.map (h : d.WellFormed) (f : Scalar → Scalar) : (d.map f).WellFormed :=
  ⟨by rw [Dense.map, Array.size_map]; exact h.size, h.small⟩

theorem WellFormed.element_map (h : d.WellFormed) {f : Scalar → Scalar} {position : List Nat}
    (hin : Shape.contains d.shape position = true) :
    (d.map f).element position = f (d.element position) := by
  have hplace := h.place_lt_size hin
  rw [(h.map f).element_eq hin, h.element_eq hin]
  simp [Dense.map, entry, hplace]

/-! ## Growing -/

/-- Growing keeps every element at its position and adds zeros; a matrix that is larger afterwards
has at most `maxElements` elements. -/
theorem WellFormed.grow (h : d.WellFormed) {position : List Nat}
    (hrank : position.length = d.shape.length) {grown : Dense}
    (hgrow : d.grow position = .ok grown) :
    grown.WellFormed ∧ grown.shape = Shape.cover d.shape position ∧
      (grown.shape = d.shape ∨ Shape.count grown.shape ≤ maxElements) ∧
      ∀ q, grown.element q = d.element q := by
  rw [Dense.grow, growsAt, hrank, BEq.rfl, Bool.true_and] at hgrow
  by_cases hin : Shape.contains d.shape position = true
  · rw [hin] at hgrow
    cases hgrow
    exact ⟨h, (Shape.cover_of_contains hin).symm, Or.inl rfl, fun _ => rfl⟩
  · rw [Bool.eq_false_iff.mpr hin] at hgrow
    obtain ⟨count, hcount, hgrown⟩ := map_eq_ok.mp hgrow
    obtain ⟨rfl, hlimit, hsmall⟩ := Shape.checkedCount_eq_ok hcount
    subst hgrown
    -- the grown matrix is the old one written out again, with zeros outside of its shape
    refine ⟨wellFormed_tabulate hsmall _, rfl, Or.inr hlimit, fun q => ?_⟩
    rw [resize, element_tabulate hsmall]
    by_cases hq : Shape.contains (Shape.cover d.shape position) q = true
    · rw [if_pos hq]
      rfl
    · rw [if_neg hq, element_outside fun hold => hq (Shape.contains_cover hrank hold)]

/-- A matrix that does not grow would be too large. -/
theorem grow_eq_error {position : List Nat} {fault : EvalError}
    (h : d.grow position = .error fault) : ∃ why, fault = .dimension why := by
  rw [Dense.grow] at h
  split at h
  · cases hcount : Shape.checkedCount (Shape.cover d.shape position) maxElements with
    | error fault' =>
        simp only [hcount] at h
        cases h
        exact ⟨_, Shape.checkedCount_eq_error hcount⟩
    | ok count =>
        simp only [hcount] at h
        exact nomatch h
  · exact nomatch h

/-- A position of another rank makes nothing grow. -/
theorem grow_of_rank_ne {position : List Nat} (h : position.length ≠ d.shape.length) :
    d.grow position = .ok d := by
  rw [Dense.grow, growsAt, beq_eq_false_iff_ne.mpr h]
  rfl

/-! ## Writing -/

/-- Storing a number at the place of a position changes the element there and no other. -/
theorem WellFormed.store (h : d.WellFormed) {position : List Nat}
    (hin : Shape.contains d.shape position = true) (x : Scalar) :
    let stored : Dense := ⟨d.shape, d.data.setIfInBounds (Shape.place d.shape position) x⟩
    stored.WellFormed ∧ ∀ q, stored.element q = if q = position then x else d.element q := by
  intro stored
  have hstored : stored.WellFormed :=
    ⟨(Array.size_setIfInBounds ..).trans h.size, h.small⟩
  refine ⟨hstored, fun q => ?_⟩
  by_cases hq : Shape.contains d.shape q = true
  · have hplace := h.place_lt_size hq
    -- by places, and two positions inside have different places
    have hentry : stored.entry (Shape.place d.shape q)
        = if Shape.place d.shape position = Shape.place d.shape q then x
          else d.entry (Shape.place d.shape q) := by
      simp [stored, entry, Array.getElem_setIfInBounds, hplace]
    rw [hstored.element_eq hq, h.element_eq hq]
    refine hentry.trans ?_
    by_cases heq : q = position
    · rw [heq, if_pos rfl, if_pos rfl]
    · rw [if_neg heq, if_neg fun hsame => heq (Shape.place_inj hq hin hsame.symm)]
  · have hne : q ≠ position := fun heq => hq (heq ▸ hin)
    rw [if_neg hne, element_outside hq]
    exact element_outside hq

/-- The steps of a write that succeeds. -/
theorem set_steps {position : List Nat} {x : Scalar} {written : Dense}
    (hset : d.set position x = .ok written) :
    ∃ grown place, d.grow position = .ok grown ∧ Shape.offset grown.shape position = .ok place ∧
      place < grown.data.size ∧
      written = { grown with data := grown.data.setIfInBounds place x } := by
  obtain ⟨grown, hgrow, hset⟩ := bind_eq_ok.mp hset
  obtain ⟨place, hoffset, hset⟩ := bind_eq_ok.mp hset
  obtain ⟨place', hseek, rfl⟩ := map_eq_ok.mp hset
  obtain ⟨hplace, rfl⟩ := seek_eq_ok hseek
  exact ⟨grown, place', hgrow, hoffset, hplace, rfl⟩

/-- What a write does that succeeds: the matrix covers the position, and the element there is the
number written. -/
theorem WellFormed.set (h : d.WellFormed) {position : List Nat} {x : Scalar} {written : Dense}
    (hset : d.set position x = .ok written) :
    written.WellFormed ∧ position.length = d.shape.length ∧
      written.shape = Shape.cover d.shape position ∧
      Shape.contains written.shape position = true ∧
      (written.shape = d.shape ∨ Shape.count written.shape ≤ maxElements) ∧
      ∀ q, written.element q = if q = position then x else d.element q := by
  obtain ⟨grown, place, hgrow, hoffset, -, rfl⟩ := set_steps hset
  -- the position has an offset, so it lies inside of the grown matrix
  have hin : Shape.contains grown.shape position = true := by
    by_contra hout
    obtain ⟨fault, hfault⟩ := Shape.offset_outside hout
    rw [hfault] at hoffset
    exact nomatch hoffset
  have hrank : position.length = d.shape.length := by
    -- with another rank nothing would have grown
    by_contra hrank
    rw [grow_of_rank_ne hrank] at hgrow
    cases hgrow
    exact hrank (Shape.length_of_contains hin)
  obtain ⟨hgrown, hshape, hlimit, helement⟩ := h.grow hrank hgrow
  obtain rfl : Shape.place grown.shape position = place :=
    Except.ok.inj ((hgrown.offset_eq_place hin).symm.trans hoffset)
  obtain ⟨hwritten, hwrote⟩ := hgrown.store hin x
  refine ⟨hwritten, hrank, hshape, hin, hlimit, fun q => ?_⟩
  rw [← helement q]
  exact hwrote q

/-- A write fails at a position of another rank. -/
theorem set_of_rank_ne {position : List Nat} (h : position.length ≠ d.shape.length) (x : Scalar) :
    ∃ fault, d.set position x = .error (.index fault) := by
  have hout : ¬Shape.contains d.shape position = true := fun hin =>
    h (Shape.length_of_contains hin)
  obtain ⟨fault, heq⟩ := Shape.offset_outside hout
  refine ⟨fault, ?_⟩
  rw [Dense.set, grow_of_rank_ne h]
  show (Shape.offset d.shape position >>= _) = _
  rw [heq]
  rfl

/-- A write below the last count succeeds if the matrix can grow to it. -/
theorem WellFormed.set_of_grow (h : d.WellFormed) {position : List Nat} {grown : Dense}
    (hrank : position.length = d.shape.length) (hbelow : ∀ i ∈ position, i < Word.last)
    (hgrow : d.grow position = .ok grown) (x : Scalar) :
    ∃ written, d.set position x = .ok written := by
  obtain ⟨hgrown, hshape, -⟩ := h.grow hrank hgrow
  have hin : Shape.contains grown.shape position = true := by
    rw [hshape]
    exact Shape.contains_cover_self hrank hbelow
  have hoffset := hgrown.offset_eq_place hin
  have hseek := seek_eq (hgrown.place_lt_size hin)
  exact ⟨_, bind_eq_ok.mpr ⟨grown, hgrow, bind_eq_ok.mpr
    ⟨_, hoffset, map_eq_ok.mpr ⟨_, hseek, rfl⟩⟩⟩⟩

/-- A write below the last count succeeds, or the matrix would be too large. -/
theorem WellFormed.set_cases (h : d.WellFormed) {position : List Nat}
    (hrank : position.length = d.shape.length) (hbelow : ∀ i ∈ position, i < Word.last)
    (x : Scalar) :
    (∃ fault, d.set position x = .error (.dimension fault)) ∨
      ∃ written, d.set position x = .ok written := by
  cases hgrow : d.grow position with
  | error fault =>
      obtain ⟨why, rfl⟩ := grow_eq_error hgrow
      refine Or.inl ⟨why, ?_⟩
      rw [Dense.set, hgrow]
      rfl
  | ok grown => exact Or.inr (h.set_of_grow hrank hbelow hgrow x)

end Dense

end Formula
