import Formula.Proofs.Matrix.Datatype

set_option autoImplicit false

/-! # Changes of tagged matrices

A matrix is made from data, and then written to, rearranged, converted, copied, tagged and mapped in
any order. Whatever the order, a matrix of the datatype `number` stores real numbers only
(`number_matrix_real`), and the operations that move elements keep the tag. The tag is given to a
sparse matrix after a look at its expansion, so there the matrix must have fewer than `2 ^ 64`
elements (`tag_misses_hidden`).
-/

namespace Formula.Matrix

open Outcome

/-! ## Changes -/

/-- An operation that changes a matrix or gives another one in its place. -/
inductive Change where
  | set (position : List Nat) (x : Scalar)
  | setSubset (lists : List (List Nat)) (replacement : Matrix)
  | subset (lists : List (List Nat))
  | intoStorage (kind : StorageKind)
  | copy (storage datatype : Option String)
  | withDatatype (datatype : DataType)
  | transpose
  | ctranspose
  | conj
  | map (f : Scalar → Scalar)

/-- What becomes of a matrix that an operation is to replace: it stays if the operation is
refused. -/
def replaced (m : Matrix) : Except EvalError Matrix → Except EvalError Unit × Matrix
  | .ok r => (.ok (), r)
  | .error fault => (.error fault, m)

namespace Change

/-- The answer of a change and the matrix after it. -/
def run (m : Matrix) : Change → Except EvalError Unit × Matrix
  | set position x => m.replaced (m.set position x)
  | setSubset lists replacement => m.setSubset lists replacement
  | subset lists => m.replaced (m.subset lists)
  | intoStorage kind => m.replaced (m.intoStorage kind)
  | copy storage datatype => m.replaced (m.copy storage datatype)
  | withDatatype datatype => m.replaced (m.withDatatype datatype)
  | transpose => m.replaced m.transpose
  | ctranspose => m.replaced m.ctranspose
  | conj => m.replaced (.ok m.conj)
  | map f => m.replaced (.ok (m.map f))

/-- A change that moves elements only; a copy that is not given a datatype is one. -/
def Rearranges : Change → Prop
  | subset _ | intoStorage _ | transpose | ctranspose => True
  | copy _ datatype => datatype = none
  | _ => False

/-- No element of a change is written at the last index, `2 ^ 64 - 1`. -/
def Below : Change → Prop
  | set position _ => ∀ i ∈ position, i < Word.last
  | setSubset lists _ => ∀ indices ∈ lists, ∀ i ∈ indices, i < Word.last
  | _ => True

instance : (c : Change) → Decidable c.Below
  | set position _ => inferInstanceAs (Decidable (∀ i ∈ position, i < Word.last))
  | setSubset lists _ =>
      inferInstanceAs (Decidable (∀ indices ∈ lists, ∀ i ∈ indices, i < Word.last))
  | subset _ | intoStorage _ | copy _ _ | withDatatype _ | transpose | ctranspose | conj | map _ =>
      inferInstanceAs (Decidable True)

/-- A change writes below the last index if the matrix is sparse, and a matrix that it gives the
datatype `number` can be counted. -/
structure Fits (m : Matrix) (c : Change) : Prop where
  below : m.storageKind = .sparse → c.Below
  countable : m.datatype ≠ some .number → (c.run m).2.datatype = some .number →
    (c.run m).2.Countable

instance (m : Matrix) (c : Change) : Decidable (c.Fits m) :=
  decidable_of_iff ((m.storageKind = .sparse → c.Below) ∧
      (m.datatype ≠ some .number → (c.run m).2.datatype = some .number → (c.run m).2.Countable))
    ⟨fun h => ⟨h.1, h.2⟩, fun h => ⟨h.below, h.countable⟩⟩

end Change

section changes

variable {m : Matrix}

theorem Sound.replaced (h : m.Sound) {result : Except EvalError Matrix}
    (hresult : ∀ r, result = .ok r → r.Sound) : (m.replaced result).2.Sound := by
  cases result with
  | error fault => exact h
  | ok r => exact hresult r rfl

theorem datatype_replaced {result : Except EvalError Matrix}
    (hresult : ∀ r, result = .ok r → r.datatype = m.datatype) :
    (m.replaced result).2.datatype = m.datatype := by
  cases result with
  | error fault => rfl
  | ok r => exact hresult r rfl

/-- A copy is made with the options that its tokens name. -/
theorem copy_cases {storage datatype : Option String} {r : Matrix}
    (h : m.copy storage datatype = .ok r) :
    ∃ kind tag, parseDatatype datatype = .ok tag ∧
      m.withOptions kind (tag.or m.datatype) = .ok r := by
  obtain ⟨kind, -, h⟩ := bind_eq_ok.mp h
  obtain ⟨tag, htag, h⟩ := bind_eq_ok.mp h
  exact ⟨kind, tag, htag, h⟩

/-- One change keeps a matrix sound. -/
theorem Sound.run (h : m.Sound) {c : Change} (hfits : c.Fits m) : (c.run m).2.Sound := by
  obtain ⟨hbelow, hcountable⟩ := hfits
  cases c with
  | set position x => exact h.replaced fun r hr => h.set hbelow hr
  | setSubset lists replacement => exact h.setSubset replacement hbelow
  | subset lists => exact h.replaced fun r hr => h.subset hr
  | intoStorage kind => exact h.replaced fun r hr => h.intoStorage hr
  | copy storage datatype =>
      refine h.replaced fun r hr => ?_
      -- a copy that drops the tag is read off its elements again
      rw [Change.run, hr] at hcountable
      obtain ⟨kind, tag, -, hr⟩ := copy_cases hr
      exact h.withOptions hr hcountable
  | withDatatype datatype =>
      refine h.replaced fun r hr => ?_
      rw [Change.run, hr] at hcountable
      exact h.withDatatype hr hcountable
  | transpose => exact h.replaced fun r hr => h.transposeWith (fun _ => rfl) (fun _ hx => hx) hr
  | ctranspose =>
      exact h.replaced fun r hr => h.transposeWith Scalar.isZero_conj isReal_conj hr
  | conj => exact sound_map m Scalar.conj
  | map f => exact sound_map m f

/-- A change that moves elements only keeps the tag. -/
theorem Change.Rearranges.datatype_run {c : Change} (hc : c.Rearranges) :
    (c.run m).2.datatype = m.datatype := by
  cases c with
  | subset lists => exact datatype_replaced fun r hr => datatype_subset hr
  | intoStorage kind => exact datatype_replaced fun r hr => datatype_intoStorage hr
  | copy storage datatype =>
      refine datatype_replaced fun r hr => ?_
      obtain ⟨kind, tag, htag, hr⟩ := copy_cases hr
      -- without a token the tag asked for is the one the matrix has
      rw [Change.Rearranges] at hc
      subst hc
      cases htag
      rw [datatype_withOptions hr]
      exact Option.or_self
  | transpose => exact datatype_replaced fun r hr => datatype_transposeWith hr
  | ctranspose => exact datatype_replaced fun r hr => datatype_transposeWith hr
  | set => exact hc.elim
  | setSubset => exact hc.elim
  | withDatatype => exact hc.elim
  | conj => exact hc.elim
  | map => exact hc.elim

end changes

/-! ## Matrices reached -/

/-- A matrix after changes, each made or refused. -/
def after (m : Matrix) (changes : List Change) : Matrix :=
  changes.foldl (fun m c => (c.run m).2) m

/-- The matrices that come about by allowed changes. The first one is made of a nested sequence with
the options asked for, of data and a shape, or is an untagged sparse one. -/
inductive Reachable (allowed : Matrix → Change → Prop) : Matrix → Prop where
  | constructed {source : Option Nested} {storage datatype : Option String} {m : Matrix}
      (h : construct source storage datatype = .ok m) : Reachable allowed m
  | dense {data : Array Scalar} {shape : List Nat} {m : Matrix} (h : ofData data shape = .ok m) :
      Reachable allowed m
  | sparse {s : Sparse} (h : s.WellFormed) : Reachable allowed ⟨.sparse s, none⟩
  | changed {m : Matrix} {c : Change} (h : Reachable allowed m) (hc : allowed m c) :
      Reachable allowed (c.run m).2

/-- Options are applied to the matrix of a nested sequence, or to an empty one. -/
theorem construct_cases {source : Option Nested} {storage datatype : Option String} {m : Matrix}
    (h : construct source storage datatype = .ok m) :
    ∃ base kind tag, base.withOptions kind tag = .ok m ∧
      ((∃ nested, ofNested nested = .ok base) ∨ base = empty ∨
        base = ⟨.sparse (Sparse.zeros 0 0), none⟩) := by
  obtain ⟨kind, -, h⟩ := bind_eq_ok.mp h
  obtain ⟨tag, -, h⟩ := bind_eq_ok.mp h
  cases source with
  | some nested =>
      obtain ⟨base, hbase, h⟩ := bind_eq_ok.mp h
      exact ⟨base, kind, tag, h, .inl ⟨nested, hbase⟩⟩
  | none =>
      rcases kind with _ | _ | _
      · exact ⟨empty, none, tag, h, .inr (.inl rfl)⟩
      · exact ⟨empty, some .dense, tag, h, .inr (.inl rfl)⟩
      · exact ⟨⟨.sparse (Sparse.zeros 0 0), none⟩, some .sparse, tag, h, .inr (.inr rfl)⟩

/-- A new matrix is small enough to be expanded, so that its tag is right. -/
theorem sound_construct {source : Option Nested} {storage datatype : Option String} {m : Matrix}
    (h : construct source storage datatype = .ok m) : m.Sound := by
  obtain ⟨base, kind, tag, h, hbase⟩ := construct_cases h
  have hnew : base.Sound ∧ Shape.count base.shape < Word.size := by
    rcases hbase with ⟨nested, hnested⟩ | rfl | rfl
    · obtain ⟨items, shape, -, -, hsmall, rfl⟩ := ofNested_eq_ok_iff.mp hnested
      exact ⟨sound_dense nofun, hsmall⟩
    · exact ⟨sound_dense nofun, by decide⟩
    · exact ⟨sound_sparse (Sparse.wellFormed_zeros 0 0) nofun, by decide⟩
  refine hnew.1.withOptions h fun _ _ _ => ?_
  rw [count_withOptions h]
  exact hnew.2

/-- Every matrix reached is sound: the first one is, and every change keeps it so. -/
theorem Reachable.sound {m : Matrix} (h : Reachable (fun m c => c.Fits m) m) : m.Sound := by
  induction h with
  | constructed h => exact sound_construct h
  | dense h =>
      obtain ⟨d, -, rfl⟩ := map_eq_ok.mp h
      exact sound_dense nofun
  | sparse h => exact sound_sparse h nofun
  | changed _ hc ih => exact ih.run hc

/-- A matrix reached that has the datatype `number` stores real numbers only, and changes that move
elements never touch the tag. -/
theorem number_matrix_real (m : Matrix) :
    (Reachable (fun m c => c.Fits m) m → m.datatype = some .number → m.AllReal) ∧
      ∀ c : Change, c.Rearranges → (c.run m).2.datatype = m.datatype :=
  ⟨fun h => h.sound.real, fun _ hc => hc.datatype_run⟩

/-- A sparse matrix is tagged, grows, and is transposed. -/
theorem number_matrix_real_grown :
    let changes := [.set [1, 2] (.real 5), .withDatatype .number, .set [0, 0] (.complex ⟨0, 1⟩),
      .setSubset [[0], [0, 3]] (ofReals [7, 0]), .ctranspose]
    let m := after ⟨.sparse (Sparse.zeros 0 0), none⟩ changes
    Reachable (fun m c => c.Fits m) m ∧ m.datatype = some .number ∧ m.AllReal ∧
      (Change.transpose.run m).2.datatype = some .number := by
  intro changes m
  have hreachable : Reachable (fun m c => c.Fits m) m := by
    refine .changed (.changed (.changed (.changed (.changed
      (.sparse (Sparse.wellFormed_zeros 0 0)) ?_) ?_) ?_) ?_) ?_
    all_goals decide +kernel
  have htag : m.datatype = some .number := by decide +kernel
  obtain ⟨hreal, hkeeps⟩ := number_matrix_real m
  exact ⟨hreachable, htag, hreal hreachable htag, (hkeeps .transpose trivial).trans htag⟩

/-- The expansion of a sparse matrix with `2 ^ 63 + 1` rows and two columns has the elements of two
rows in the same place, so a complex number there is not seen when the matrix is tagged. -/
theorem tag_misses_hidden :
    let changes := [.set [0, 0] (.complex ⟨0, 1⟩), .set [2 ^ 63, 0] (.real 1), .set [0, 1] .zero,
      .withDatatype .number]
    let m := after ⟨.sparse (Sparse.zeros 0 0), none⟩ changes
    Reachable (fun _ _ => True) m ∧ m.datatype = some .number ∧ ¬ m.AllReal := by
  intro changes m
  have hnew : construct none (some "sparse") none = .ok ⟨.sparse (Sparse.zeros 0 0), none⟩ := rfl
  refine ⟨.changed (.changed (.changed (.changed (.constructed hnew) trivial) trivial) trivial)
    trivial, ?_, ?_⟩
  · decide +kernel
  · decide +kernel

end Formula.Matrix
