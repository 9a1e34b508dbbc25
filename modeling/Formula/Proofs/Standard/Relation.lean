import Formula.Proofs.Binary64.Exchange
import Formula.Proofs.Matrix.Expand
import Formula.Standard.Basic

set_option autoImplicit false

/-! # The six comparisons fit together

What a comparison answers depends on the relation and on how the two values meet (`Value.meet`):
two things that are ordered or at least compared for equality, many such pairs in a table, or
values that do not fit. The meeting itself does not depend on the relation, and exchanged values
meet the other way round (`meet_mirrors`). So the laws that connect the relations are laws about
a single pair of things (`Standing`), and what is left is to put the pairs together again.
-/

namespace Formula

/-- How two things stand to each other: in some order, or in none, if they are of a kind that is
ordered; otherwise they are the same or not. -/
inductive Standing where
  | ranked (order : Option Ordering)
  | matched (same : Bool)

/-- How the second thing stands to the first one. -/
def Standing.swap : Standing → Standing
  | .ranked order => .ranked (order.map Ordering.swap)
  | .matched same => .matched same

/-- How two values meet in a comparison. -/
inductive Meeting where
  /-- One thing and another one. -/
  | single (standing : Standing)
  /-- The elements of a matrix of this shape, each with its counterpart. -/
  | table (shape : List Nat) (standings : List Standing)
  /-- Null and something else; `kind` is what an order takes offence at. -/
  | apart (kind : ValueKind)
  /-- A value that is not compared with anything. -/
  | unfit (kind : ValueKind)
  /-- Matrices of two shapes. -/
  | misshapen (one other : List Nat)
  /-- A matrix that cannot be written out. -/
  | unwritten (fault : EvalError)

/-! ## Numbers -/

namespace Relation

/-- Numbers are ordered as their parts are compared. -/
theorem order_eq_compare (x y : Float) : order x y = x.toModel.unpack.compare y.toModel.unpack := by
  simp only [order, Binary64.lt_iff_compare x y, Binary64.beq_iff_compare, Binary64.gt_iff_compare]
  cases x.toModel.unpack.compare y.toModel.unpack with
  | none => rfl
  | some o => cases o <;> rfl

theorem order_swap (x y : Float) : order y x = (order x y).map Ordering.swap := by
  rw [order_eq_compare, order_eq_compare, Binary64.compare_swap]

/-- Is the relation decided for things that stand like this? -/
def decides (r : Relation) : Standing → Bool
  | .ranked _ => true
  | .matched _ => r.isEquality

/-- Does the relation hold, where it is decided? -/
def holdsAt (r : Relation) : Standing → Bool
  | .ranked order => r.holds order
  | .matched same => if r = equal then same else !same

/-- A truth value as an element of a matrix. -/
def flag (b : Bool) : Scalar := .real (Value.bit b)

end Relation

/-- How two numbers stand to each other. -/
def Scalar.standing : Scalar → Scalar → Standing
  | .real x, .real y => .ranked (Relation.order x y)
  | x, y => .matched (x.toComplex == y.toComplex)

theorem Scalar.standing_swap (x y : Scalar) : y.standing x = (x.standing y).swap := by
  cases x with
  | real a =>
      cases y with
      | real b => exact congrArg Standing.ranked (Relation.order_swap a b)
      | complex w => exact congrArg Standing.matched (Complex.beq_comm _ _)
  | complex z => cases y <;> exact congrArg Standing.matched (Complex.beq_comm _ _)

namespace Relation

/-- Numbers are compared by how they stand to each other. -/
theorem compareScalars_eq (r : Relation) (x y : Scalar) :
    r.compareScalars x y = if r.decides (x.standing y) then .ok (flag (r.holdsAt (x.standing y)))
      else .error (.type (.unordered r.name)) := by
  cases x with
  | real a =>
      cases y with
      | real b => rfl
      | complex w => rfl
  | complex z => cases y <;> rfl

/-! ## Values -/

/-- What a relation answers when two values meet. -/
def answer (r : Relation) : Meeting → Except EvalError Value
  | .single s => if r.decides s then .ok (.boolean (r.holdsAt s))
      else .error (.type (.unordered r.name))
  | .table shape standings => if standings.all r.decides
      then (Matrix.ofData (standings.map fun s => flag (r.holdsAt s)).toArray shape).map .matrix
      else .error (.type (.unordered r.name))
  | .apart kind => if r.isEquality then .ok (.boolean (r == unequal))
      else .error (.type (.argument r.name kind))
  | .unfit kind => .error (.type (.argument r.name kind))
  | .misshapen one other => .error (.dimension (.mismatch one other))
  | .unwritten fault => .error fault

theorem answer_single (r : Relation) (s : Standing) :
    r.answer (.single s) = if r.decides s then .ok (.boolean (r.holdsAt s))
      else .error (.type (.unordered r.name)) := rfl

theorem answer_table (r : Relation) (shape : List Nat) (standings : List Standing) :
    r.answer (.table shape standings) = if standings.all r.decides
      then (Matrix.ofData (standings.map fun s => flag (r.holdsAt s)).toArray shape).map .matrix
      else .error (.type (.unordered r.name)) := rfl

theorem answer_apart (r : Relation) (kind : ValueKind) :
    r.answer (.apart kind) = if r.isEquality then .ok (.boolean (r == unequal))
      else .error (.type (.argument r.name kind)) := rfl

end Relation

/-- How the elements of a matrix meet something, if the matrix can be written out. -/
def Matrix.meetElements (m : Matrix) (meet : List Scalar → Meeting) : Meeting :=
  match m.expand with
  | .ok data => meet data.toList
  | .error fault => .unwritten fault

/-- How the elements of two matrices meet. -/
def Matrix.meet (m n : Matrix) : Meeting :=
  if m.shape = n.shape then
    m.meetElements fun xs => n.meetElements fun ys =>
      .table m.shape ((xs.zip ys).map fun e => e.1.standing e.2)
  else .misshapen m.shape n.shape

/-- How two operands meet. -/
def Operand.meet : Operand → Operand → Meeting
  | .scalar x, .scalar y => .single (x.standing y)
  | .matrix m, .scalar y => m.meetElements fun xs => .table m.shape (xs.map fun x => x.standing y)
  | .scalar x, .matrix m => m.meetElements fun ys => .table m.shape (ys.map fun y => x.standing y)
  | .matrix m, .matrix n => m.meet n

namespace Value

/-- The operand that a value is. -/
def operand? : Value → Option Operand
  | .number x => some (.scalar (.real x))
  | .boolean b => some (.scalar (.real (bit b)))
  | .complex z => some (.scalar (.complex z))
  | .matrix m => some (.matrix m)
  | _ => none

/-- The kind of the first of two values that is no operand. -/
def unfitKind (v w : Value) : ValueKind := if v.operand?.isSome then w.kind else v.kind

/-- How two values meet if they are compared as numbers. -/
def meetNumbers (v w : Value) : Meeting :=
  match v.operand?, w.operand? with
  | some left, some right => left.meet right
  | _, _ => .unfit (unfitKind v w)

/-- How two values meet. -/
def meet : Value → Value → Meeting
  | .string s, .string t => .single (.ranked (some (compareOfLessAndEq s t)))
  | .null, .null => .single (.ranked (some .eq))
  | .null, w => .apart (unfitKind .null w)
  | v, .null => .apart (unfitKind v .null)
  | v, w => meetNumbers v w

end Value

theorem Operand.ofValue_eq (function : String) (v : Value) :
    ofValue function v = match v.operand? with
      | some operand => .ok operand
      | none => .error (unsupported function v) := by
  cases v <;> rfl

namespace Relation

theorem mapM_compare {α : Type} (r : Relation) (items : List α) (left right : α → Scalar) :
    (items.mapM fun e => r.compareScalars (left e) (right e))
      = if (items.map fun e => (left e).standing (right e)).all r.decides
        then .ok ((items.map fun e => (left e).standing (right e)).map fun s => flag (r.holdsAt s))
        else .error (.type (.unordered r.name)) := by
  induction items with
  | nil => rfl
  | cons e rest ih =>
      rw [List.mapM_cons, ih, compareScalars_eq, List.map_cons, List.all_cons, List.map_cons]
      -- the first pair that has no answer decides, and nothing is told about it but the relation
      by_cases hhead : r.decides ((left e).standing (right e)) = true
      · rw [if_pos hhead, hhead, Bool.true_and]
        by_cases hrest : (rest.map fun e => (left e).standing (right e)).all r.decides = true
        · rw [if_pos hrest, if_pos hrest]
          rfl
        · rw [if_neg hrest, if_neg hrest]
          rfl
      · rw [if_neg hhead, Bool.eq_false_iff.mpr hhead, Bool.false_and]
        rfl

/-- The answer for a pair of numbers is read as a truth value. -/
theorem asTruth_flag (b : Bool) : asTruth (.ofScalar (flag b)) = .boolean b := by
  cases b <;> exact congrArg Value.boolean (by decide +kernel)

/-- The flags of a table make a matrix, and reading it as a truth value leaves it as it is. -/
theorem table_eq {α : Type} (r : Relation) (shape : List Nat) (items : List α)
    (left right : α → Scalar) :
    ((items.toArray.mapM fun e => r.compareScalars (left e) (right e)).bind fun data =>
        (Matrix.ofData data shape).map Value.matrix).map asTruth
      = r.answer (.table shape (items.map fun e => (left e).standing (right e))) := by
  rw [List.mapM_toArray, mapM_compare, answer_table]
  split
  · show ((Matrix.ofData _ shape).map Value.matrix).map asTruth = _
    cases Matrix.ofData _ shape <;> rfl
  · rfl

theorem single_eq (r : Relation) (x y : Scalar) :
    ((r.compareScalars x y).map Value.ofScalar).map asTruth
      = r.answer (.single (x.standing y)) := by
  rw [compareScalars_eq, answer_single]
  split
  · exact congrArg Except.ok (asTruth_flag _)
  · rfl

/-- What is answered for the elements of a matrix is answered for the matrix, if it can be written
out. -/
theorem elements_eq (r : Relation) (m : Matrix) {compute : Array Scalar → Except EvalError Value}
    {meet : List Scalar → Meeting}
    (h : ∀ data, (compute data).map asTruth = r.answer (meet data.toList)) :
    (m.expand.bind compute).map asTruth = r.answer (m.meetElements meet) := by
  unfold Matrix.meetElements
  cases m.expand with
  | ok data => exact h data
  | error fault => rfl

theorem mapElements_eq (r : Relation) (m : Matrix) (left right : Scalar → Scalar) :
    (Operand.mapElements m fun e => r.compareScalars (left e) (right e)).map asTruth
      = r.answer (m.meetElements fun xs =>
          .table m.shape (xs.map fun e => (left e).standing (right e))) :=
  elements_eq r m fun data => table_eq r m.shape data.toList left right

theorem zipWith_eq (r : Relation) (m n : Matrix) :
    ((m.zipWith n r.compareScalars).map Value.matrix).map asTruth = r.answer (m.meet n) := by
  unfold Matrix.zipWith Matrix.meet
  by_cases hshape : m.shape = n.shape
  · rw [if_pos hshape, if_pos hshape, Outcome.map_of_bind]
    refine elements_eq r m fun xs => ?_
    rw [Outcome.map_of_bind]
    refine elements_eq r n fun ys => ?_
    rw [← table_eq r m.shape _ Prod.fst Prod.snd, ← Array.toList_zip, Array.toArray_toList]
    cases (xs.zip ys).mapM fun e => r.compareScalars e.1 e.2 <;> rfl
  · rw [if_neg hshape, if_neg hshape]
    rfl

/-- Numbers and matrices are compared by how they meet. -/
theorem compareNumbers_eq (r : Relation) (v w : Value) :
    r.compareNumbers v w = r.answer (v.meetNumbers w) := by
  unfold compareNumbers Operand.broadcast Value.meetNumbers Value.unfitKind
  rw [Operand.ofValue_eq, Operand.ofValue_eq]
  cases v.operand? with
  | none => rfl
  | some left =>
      cases w.operand? with
      | none => rfl
      | some right =>
          cases left with
          | scalar x =>
              cases right with
              | scalar y => exact single_eq r x y
              | matrix n => exact mapElements_eq r n (fun _ => x) id
          | matrix m =>
              cases right with
              | scalar y => exact mapElements_eq r m id fun _ => y
              | matrix n => exact zipWith_eq r m n

/-- What a comparison answers depends on how the values meet. -/
theorem compare_eq (r : Relation) (v w : Value) : r.compare v w = r.answer (v.meet w) := by
  -- Strings and null are answered on the spot; what else there is goes on to the numbers.
  cases v <;> cases w <;> first | rfl | exact compareNumbers_eq r _ _

end Relation

/-! ## Exchanged operands -/

/-- How two values meet, and how they meet the other way round. Which of the two a failure speaks
of may differ, but not its class. -/
inductive Meeting.Mirrors : Meeting → Meeting → Prop where
  | single (s : Standing) : Mirrors (.single s) (.single s.swap)
  | table (shape : List Nat) (standings : List Standing) :
      Mirrors (.table shape standings) (.table shape (standings.map Standing.swap))
  | apart (kind kind' : ValueKind) : Mirrors (.apart kind) (.apart kind')
  | unfit (kind kind' : ValueKind) : Mirrors (.unfit kind) (.unfit kind')
  | misshapen (one other : List Nat) : Mirrors (.misshapen one other) (.misshapen other one)
  | unwritten {fault fault' : EvalError} (h : fault'.identifier = fault.identifier) :
      Mirrors (.unwritten fault) (.unwritten fault')

theorem Scalar.single_mirrors (x y : Scalar) :
    Meeting.Mirrors (.single (x.standing y)) (.single (y.standing x)) := by
  rw [standing_swap x y]
  exact .single _

/-- A table of pairs, and the table of the same pairs turned around. -/
theorem Meeting.table_mirrors {α : Type} (shape : List Nat) (items : List α)
    (left right : α → Scalar) :
    Mirrors (.table shape (items.map fun e => (left e).standing (right e)))
      (.table shape (items.map fun e => (right e).standing (left e))) := by
  have hswap : (items.map fun e => (right e).standing (left e))
      = (items.map fun e => (left e).standing (right e)).map Standing.swap := by
    rw [List.map_map]
    exact List.map_congr_left fun e _ => Scalar.standing_swap (left e) (right e)
  rw [hswap]
  exact .table shape _

theorem Matrix.meetElements_mirrors (m : Matrix) (left right : Scalar → Scalar) :
    (m.meetElements fun xs =>
        .table m.shape (xs.map fun e => (left e).standing (right e))).Mirrors
      (m.meetElements fun xs =>
        .table m.shape (xs.map fun e => (right e).standing (left e))) := by
  unfold meetElements
  cases m.expand with
  | ok data => exact Meeting.table_mirrors m.shape data.toList left right
  | error fault => exact .unwritten rfl

theorem Matrix.meet_mirrors (m n : Matrix) : (m.meet n).Mirrors (n.meet m) := by
  unfold meet
  by_cases hshape : m.shape = n.shape
  · rw [if_pos hshape, if_pos hshape.symm, ← hshape]
    unfold meetElements
    -- whichever of the two cannot be written out, the computation breaks off
    rcases m.expand_cases with hm | ⟨cause, hm⟩
    · rcases n.expand_cases with hn | ⟨cause', hn⟩
      · rw [hm, hn]
        dsimp only
        rw [← List.zip_swap m.elements.toList, List.map_map]
        exact Meeting.table_mirrors m.shape _ Prod.fst Prod.snd
      · rw [hm, hn]
        exact .unwritten rfl
    · rcases n.expand_cases with hn | ⟨cause', hn⟩
      · rw [hm, hn]
        exact .unwritten rfl
      · rw [hm, hn]
        exact .unwritten rfl
  · rw [if_neg hshape, if_neg (Ne.symm hshape)]
    exact .misshapen _ _

theorem Operand.meet_mirrors (left right : Operand) :
    (left.meet right).Mirrors (right.meet left) := by
  cases left with
  | scalar x =>
      cases right with
      | scalar y => exact Scalar.single_mirrors x y
      | matrix n => exact n.meetElements_mirrors (fun _ => x) id
  | matrix m =>
      cases right with
      | scalar y => exact m.meetElements_mirrors id fun _ => y
      | matrix n => exact Matrix.meet_mirrors m n

namespace Value

theorem strings_mirror (s t : String) :
    Meeting.Mirrors (.single (.ranked (some (compareOfLessAndEq s t))))
      (.single (.ranked (some (compareOfLessAndEq t s)))) := by
  rw [compareOfLessAndEq_eq_swap String.le_antisymm String.le_total String.not_le (x := t) (y := s)]
  exact .single (.ranked (some _))

theorem meetNumbers_mirrors (v w : Value) : (v.meetNumbers w).Mirrors (w.meetNumbers v) := by
  unfold meetNumbers
  cases v.operand? with
  | none => cases w.operand? <;> exact .unfit _ _
  | some left =>
      cases w.operand? with
      | none => exact .unfit _ _
      | some right => exact left.meet_mirrors right

/-- Exchanged values meet the other way round. -/
theorem meet_mirrors (v w : Value) : (v.meet w).Mirrors (w.meet v) := by
  cases v <;> cases w <;> simp only [meet] <;>
    first
    | exact meetNumbers_mirrors _ _
    | exact strings_mirror _ _
    | exact .single (.ranked (some .eq))
    | exact .apart _ _

end Value

/-! ## Answers -/

theorem Matrix.ofData_eq (data : Array Scalar) (shape : List Nat) :
    ofData data shape = if data.size = Word.product shape
      then .ok (.ofDense ⟨shape, data⟩)
      else .error (.dimension (.dataLength data.size shape (Word.product shape))) := by
  unfold ofData Dense.ofData
  by_cases hsize : data.size = Word.product shape
  · rw [if_pos hsize, if_pos hsize]
    rfl
  · rw [if_neg hsize, if_neg hsize]
    rfl

namespace Relation

/-- The matrix of the flags of some things. -/
def flags {α : Type} (shape : List Nat) (items : List α) (holds : α → Bool) : Value :=
  .matrix (.ofDense ⟨shape, (items.map fun e => flag (holds e)).toArray⟩)

/-- The answers of a relation where it has one. -/
inductive Answers (r : Relation) : Meeting → Value → Prop where
  | single {s : Standing} (h : r.decides s = true) : Answers r (.single s) (.boolean (r.holdsAt s))
  | table {shape : List Nat} {standings : List Standing}
      (h : ∀ s ∈ standings, r.decides s = true) (hsize : standings.length = Word.product shape) :
      Answers r (.table shape standings) (flags shape standings r.holdsAt)
  | apart {kind : ValueKind} (h : r.isEquality = true) :
      Answers r (.apart kind) (.boolean (r == unequal))

theorem answer_eq_ok_iff {r : Relation} {t : Meeting} {a : Value} :
    r.answer t = .ok a ↔ r.Answers t a := by
  constructor
  · intro h
    cases t with
    | single s =>
        rw [answer_single] at h
        split at h
        next hs =>
          cases h
          exact .single hs
        next => exact nomatch h
    | table shape standings =>
        rw [answer_table] at h
        split at h
        next hall =>
          obtain ⟨m, hm, rfl⟩ := Outcome.map_eq_ok.mp h
          rw [Matrix.ofData_eq] at hm
          split at hm
          next hsize =>
            cases hm
            exact .table (List.all_eq_true.mp hall) (by simpa using hsize)
          next => exact nomatch hm
        next => exact nomatch h
    | apart kind =>
        rw [answer_apart] at h
        split at h
        next hr =>
          cases h
          exact .apart hr
        next => exact nomatch h
    | unfit kind => exact nomatch h
    | misshapen one other => exact nomatch h
    | unwritten fault => exact nomatch h
  · intro h
    cases h with
    | single hs => rw [answer_single, if_pos hs]
    | table hall hsize =>
        rw [answer_table, if_pos (List.all_eq_true.mpr hall), Matrix.ofData_eq,
          if_pos (by simpa using hsize)]
        rfl
    | apart hr => rw [answer_apart, if_pos hr]

/-! ## Negation and disjunction -/

/-- A truth value and its negation, or a matrix and one minus each of its elements. -/
inductive Negates : Value → Value → Prop where
  | truth (b : Bool) : Negates (.boolean b) (.boolean !b)
  | table (d : Dense) :
      Negates (.matrix (.ofDense d)) (.matrix (.ofDense (d.map fun x => .real 1 - x)))

/-- Two truth values and their disjunction, or matrices of flags and those of the disjunctions. -/
inductive Disjoins : Value → Value → Value → Prop where
  | truth (a b : Bool) : Disjoins (.boolean a) (.boolean b) (.boolean (a || b))
  | table {α : Type} (shape : List Nat) (items : List α) (f g : α → Bool) :
      Disjoins (flags shape items f) (flags shape items g) (flags shape items fun e => f e || g e)

theorem sub_flag (b : Bool) : Scalar.real 1 - flag b = flag !b := by
  cases b <;> exact congrArg Scalar.real (by decide +kernel)

theorem negates_flags {α : Type} (shape : List Nat) (items : List α) (holds : α → Bool) :
    Negates (flags shape items holds) (flags shape items fun e => !holds e) := by
  have hdata : (items.map fun e => flag !holds e).toArray
      = ((items.map fun e => flag (holds e)).toArray).map fun x => Scalar.real 1 - x := by
    simp [sub_flag, Function.comp_def]
  unfold flags
  rw [hdata]
  exact .table ⟨shape, _⟩

/-- Where it is decided whether things are equal, they are unequal if they are not. -/
theorem holdsAt_unequal (s : Standing) : unequal.holdsAt s = !equal.holdsAt s := by
  cases s with
  | ranked order =>
      cases order with
      | none => rfl
      | some o => cases o <;> rfl
  | matched same => rfl

/-- Only things that are ordered are compared by an order, and there `smallerEq` is `smaller` or
`equal`. -/
theorem holdsAt_smallerEq {s : Standing} (h : smaller.decides s = true) :
    smallerEq.holdsAt s = (smaller.holdsAt s || equal.holdsAt s) := by
  cases s with
  | ranked order =>
      cases order with
      | none => rfl
      | some o => cases o <;> rfl
  | matched same => exact nomatch h

/-- What is equal or not is unequal or not, and the one answer is the negation of the other. -/
theorem Answers.exists_unequal {t : Meeting} {a : Value} (h : equal.Answers t a) :
    ∃ b, unequal.Answers t b ∧ Negates a b := by
  cases h with
  | single hs =>
      refine ⟨_, .single hs, ?_⟩
      rw [holdsAt_unequal]
      exact .truth _
  | table hall hsize =>
      refine ⟨_, .table hall hsize, ?_⟩
      rw [funext holdsAt_unequal]
      exact negates_flags _ _ _
  | apart => exact ⟨_, .apart rfl, .truth false⟩

theorem Answers.exists_equal {t : Meeting} {b : Value} (h : unequal.Answers t b) :
    ∃ a, equal.Answers t a := by
  cases h with
  | single hs => exact ⟨_, .single hs⟩
  | table hall hsize => exact ⟨_, .table hall hsize⟩
  | apart => exact ⟨_, .apart rfl⟩

theorem decides_equal (s : Standing) : equal.decides s = true := by
  cases s <;> rfl

theorem flags_congr {α : Type} (shape : List Nat) {items : List α} {f g : α → Bool}
    (h : ∀ e ∈ items, f e = g e) : flags shape items f = flags shape items g := by
  unfold flags
  rw [List.map_congr_left fun e he => congrArg flag (h e he)]

theorem flags_map {α β : Type} (shape : List Nat) (items : List α) (g : α → β) (f : β → Bool) :
    flags shape (items.map g) f = flags shape items fun e => f (g e) := by
  unfold flags
  rw [List.map_map]
  rfl

/-- What is smaller or not is also equal or not, and the two answers make up the third. -/
theorem Answers.exists_smallerEq {t : Meeting} {a : Value} (h : smaller.Answers t a) :
    ∃ e b, equal.Answers t e ∧ smallerEq.Answers t b ∧ Disjoins a e b := by
  cases h with
  | single hs =>
      refine ⟨_, _, .single (decides_equal _), .single hs, ?_⟩
      rw [holdsAt_smallerEq hs]
      exact .truth _ _
  | table hall hsize =>
      refine ⟨_, _, .table (fun s _ => decides_equal s) hsize, .table hall hsize, ?_⟩
      rw [flags_congr _ fun s hs => holdsAt_smallerEq (hall s hs)]
      exact .table _ _ _ _
  | apart hr => exact nomatch hr

/-! ## The relation of exchanged operands -/

/-- The relation in which the second thing stands to the first one. -/
def converse : Relation → Relation
  | equal => equal
  | unequal => unequal
  | smaller => larger
  | larger => smaller
  | smallerEq => largerEq
  | largerEq => smallerEq

theorem decides_swap {r r' : Relation} (h : r.isEquality = r'.isEquality) (s : Standing) :
    r'.decides s.swap = r.decides s := by
  cases s with
  | ranked order => rfl
  | matched same => exact h.symm

theorem isEquality_converse (r : Relation) : r.converse.isEquality = r.isEquality := by
  cases r <;> rfl

theorem holdsAt_converse (r : Relation) (s : Standing) :
    r.converse.holdsAt s.swap = r.holdsAt s := by
  cases s with
  | ranked order =>
      cases order with
      | none => cases r <;> rfl
      | some o => cases r <;> cases o <;> rfl
  | matched same => cases r <;> rfl

/-- The converse relation has the same answer for exchanged operands. -/
theorem Answers.of_mirrors {r : Relation} {t t' : Meeting} (ht : t.Mirrors t') {a : Value}
    (h : r.Answers t a) : r.converse.Answers t' a := by
  have hq := isEquality_converse r
  cases ht with
  | single s =>
      cases h with
      | single hs =>
          rw [← holdsAt_converse]
          exact .single ((decides_swap hq.symm s).trans hs)
  | table shape standings =>
      cases h with
      | table hall hsize =>
          rw [← funext (holdsAt_converse r), ← flags_map shape standings Standing.swap]
          refine .table (List.forall_mem_map.mpr fun s hs => ?_) (by rwa [List.length_map])
          exact (decides_swap hq.symm s).trans (hall s hs)
  | apart kind kind' =>
      cases h with
      | apart hr =>
          -- values of different kinds are unequal, and `unequal` is its own converse
          have hsame : (r == unequal) = (r.converse == unequal) := by cases r <;> rfl
          rw [hsame]
          exact .apart (hq.trans hr)
  | unfit kind kind' => exact nomatch h
  | misshapen one other => exact nomatch h
  | unwritten hclass => exact nomatch h

/-! ## Failures -/

/-- Wherever the first computation fails the second one does, with an error of the same class. -/
def FailsLike (x y : Except EvalError Value) : Prop :=
  ∀ e, x = .error e → ∃ e', y = .error e' ∧ e'.identifier = e.identifier

theorem FailsLike.trans {x y z : Except EvalError Value} (h : FailsLike x y)
    (h' : FailsLike y z) : FailsLike x z := by
  intro e he
  obtain ⟨e', hy, hclass⟩ := h e he
  obtain ⟨e'', hz, hclass'⟩ := h' e' hy
  exact ⟨e'', hz, hclass'.trans hclass⟩

theorem FailsLike.of_ok (a : Value) (y : Except EvalError Value) : FailsLike (.ok a) y :=
  fun _ h => nomatch h

theorem FailsLike.of_error {e e' : EvalError} (h : e'.identifier = e.identifier) :
    FailsLike (.error e) (.error e') := by
  intro _ he
  cases he
  exact ⟨e', rfl, h⟩

/-- Relations that ask for the same, equality or an order, fail for the same reasons, also where
the operands are exchanged. -/
theorem failsLike_of_mirrors {r r' : Relation} (h : r.isEquality = r'.isEquality)
    {t t' : Meeting} (ht : t.Mirrors t') : FailsLike (r.answer t) (r'.answer t') := by
  cases ht with
  | single s =>
      rw [answer_single, answer_single, decides_swap h]
      split
      · exact .of_ok _ _
      · exact .of_error rfl
  | table shape standings =>
      -- swapping the sides of a pair never changes whether a relation decides it
      have hall : (standings.map Standing.swap).all r'.decides = standings.all r.decides := by
        rw [List.all_map]
        exact congrArg standings.all (funext (decides_swap h))
      rw [answer_table, answer_table, hall, Matrix.ofData_eq, Matrix.ofData_eq]
      simp only [List.size_toArray, List.length_map]
      split
      · split
        · exact .of_ok _ _
        · exact .of_error rfl
      · exact .of_error rfl
  | apart kind kind' =>
      rw [answer_apart, answer_apart, ← h]
      split
      · exact .of_ok _ _
      · exact .of_error rfl
  | unfit kind kind' => exact .of_error rfl
  | misshapen one other => exact .of_error rfl
  | unwritten hclass => exact .of_error hclass

/-! ## The laws -/

/-- The laws by which the comparisons of two values fit together. -/
structure Coherent (v w : Value) : Prop where
  /-- Values that are not compared for being equal are not compared for being unequal. -/
  unequal_iff : (∃ b, unequal.apply [v, w] = .ok b) ↔ ∃ a, equal.apply [v, w] = .ok a
  /-- Unequal is not equal. -/
  negates : ∀ a b, equal.apply [v, w] = .ok a → unequal.apply [v, w] = .ok b → Negates a b
  /-- Values that are ordered are compared for equality, and smaller or equal is the one or the
  other. -/
  disjoins : ∀ a, smaller.apply [v, w] = .ok a →
    ∃ e b, equal.apply [v, w] = .ok e ∧ smallerEq.apply [v, w] = .ok b ∧ Disjoins a e b
  /-- The one is smaller if the other one is larger. -/
  larger : ∀ a, smaller.apply [v, w] = .ok a → larger.apply [w, v] = .ok a
  /-- The one is equal to the other as the other one to it. -/
  symm : ∀ a, equal.apply [v, w] = .ok a ↔ equal.apply [w, v] = .ok a
  /-- A comparison fails as it does with the operands exchanged or with another relation that asks
  for the same, equality or an order. -/
  fails : ∀ r r' : Relation, r.isEquality = r'.isEquality →
    FailsLike (r.apply [v, w]) (r'.apply [v, w]) ∧ FailsLike (r.apply [v, w]) (r'.apply [w, v])

theorem apply_eq (r : Relation) (v w : Value) : r.apply [v, w] = r.answer (v.meet w) :=
  compare_eq r v w

theorem apply_eq_ok_iff {r : Relation} {v w a : Value} :
    r.apply [v, w] = .ok a ↔ r.Answers (v.meet w) a := by
  rw [apply_eq, answer_eq_ok_iff]

/-- Exchanged operands and the converse relation. -/
theorem apply_converse {r : Relation} {v w a : Value} (h : r.apply [v, w] = .ok a) :
    r.converse.apply [w, v] = .ok a :=
  apply_eq_ok_iff.mpr ((apply_eq_ok_iff.mp h).of_mirrors (v.meet_mirrors w))

/-- The comparisons of any two values fit together. -/
theorem coherent (v w : Value) : Coherent v w where
  unequal_iff := by
    simp only [apply_eq_ok_iff]
    constructor
    · rintro ⟨b, hb⟩
      exact hb.exists_equal
    · rintro ⟨a, ha⟩
      obtain ⟨b, hb, -⟩ := ha.exists_unequal
      exact ⟨b, hb⟩
  negates a b ha hb := by
    obtain ⟨b', hb', hnegates⟩ := (apply_eq_ok_iff.mp ha).exists_unequal
    rw [apply_eq_ok_iff.mpr hb'] at hb
    cases hb
    exact hnegates
  disjoins a ha := by
    simp only [apply_eq_ok_iff]
    exact (apply_eq_ok_iff.mp ha).exists_smallerEq
  larger a ha := apply_converse ha
  symm a := ⟨apply_converse, apply_converse⟩
  fails r r' h := by
    have hexchange : FailsLike (r.apply [v, w]) (r'.apply [w, v]) := by
      rw [apply_eq, apply_eq]
      exact failsLike_of_mirrors h (v.meet_mirrors w)
    refine ⟨hexchange.trans ?_, hexchange⟩
    rw [apply_eq, apply_eq]
    exact failsLike_of_mirrors rfl (w.meet_mirrors v)

/-- One is smaller than two, and so two larger than one. -/
theorem coherent_one_two : smaller.apply [.number 1, .number 2] = .ok (.boolean true) ∧
    larger.apply [.number 2, .number 1] = .ok (.boolean true) := by
  have hsmaller : smaller.apply [.number 1, .number 2] = .ok (.boolean true) :=
    congrArg (fun b => Except.ok (Value.boolean b)) (by decide +kernel :
      (Value.bit (smaller.holds (order 1 2)) != 0) = true)
  exact ⟨hsmaller, (coherent (.number 1) (.number 2)).larger _ hsmaller⟩

end Relation

end Formula
