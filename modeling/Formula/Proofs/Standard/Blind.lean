import Mathlib.Data.List.Forall2
import Formula.Eval

set_option autoImplicit false

/-! # No standard operation looks into a function

Two values are alike if they are the same, or both are functions. An operation that is given a
function either refuses it, naming its kind, or does not use it, so it computes the same of
arguments that are alike. A namespace in which the functions of the host do so, too, is `Blind`.
-/

namespace Formula

/-- Two values are the same to everything that does not look into functions. -/
inductive Value.Alike : Value → Value → Prop where
  | same (v : Value) : Alike v v
  | functions (f g : Closure Value) : Alike (.function f) (.function g)

/-- No function of the host tells functions apart. -/
def Blind (registry : Registry) : Prop :=
  ∀ f ∈ registry, ∀ args args', List.Forall₂ Value.Alike args args' → f args = f args'

/-! ## Values -/

namespace Value.Alike

variable {v w : Value}

theorem kind_eq (h : v.Alike w) : v.kind = w.kind := by cases h <;> rfl

theorem truth_eq (h : v.Alike w) : v.truth = w.truth := by cases h <;> rfl

theorem toReal_eq (h : v.Alike w) : v.toReal = w.toReal := by cases h <;> rfl

theorem toNested_eq (h : v.Alike w) : v.toNested = w.toNested := by cases h <;> rfl

theorem toMatrix_eq (h : v.Alike w) (storage datatype : Option String) :
    v.toMatrix storage datatype = w.toMatrix storage datatype := by
  cases h <;> rfl

theorem ctranspose_eq (h : v.Alike w) : v.ctranspose = w.ctranspose := by cases h <;> rfl

theorem ofValue_eq (h : v.Alike w) (function : String) :
    Operand.ofValue function v = Operand.ofValue function w := by
  cases h <;> rfl

theorem toText_eq (h : v.Alike w) (function : String) :
    Operand.toText function v = Operand.toText function w := by
  cases h <;> rfl

theorem toCount_eq (h : v.Alike w) (function : String) :
    Operand.toCount function v = Operand.toCount function w := by
  rw [Operand.toCount, Operand.toCount, h.toReal_eq]

theorem indices_eq (h : v.Alike w) : Eval.indices v = Eval.indices w := by cases h <;> rfl

theorem select_eq (h : v.Alike w) (lists : List (List Nat)) :
    Eval.select v lists = Eval.select w lists := by
  cases h <;> rfl

theorem replacement_eq (h : v.Alike w) : Eval.replacement v = Eval.replacement w := by
  cases h <;> rfl

end Value.Alike

/-- Functions of single values agree on lists of values as they do on values. -/
theorem mapM_alike {α : Type} {f : Value → Except EvalError α}
    (hf : ∀ {v w : Value}, v.Alike w → f v = f w) {vs ws : List Value}
    (h : List.Forall₂ Value.Alike vs ws) : vs.mapM f = ws.mapM f := by
  induction h with
  | nil => rfl
  | cons hv _ ih => rw [List.mapM_cons, List.mapM_cons, hf hv, ih]

theorem Value.collect_alike {vs ws : List Value} (h : List.Forall₂ Value.Alike vs ws) :
    Value.collect vs = Value.collect ws := by
  have hnested := mapM_alike Value.Alike.toNested_eq h
  cases h with
  | nil => rfl
  | cons _ _ => rw [collect, collect, List.isEmpty_cons, List.isEmpty_cons, hnested]

/-! ## Operands -/

namespace Operand

variable {v v' w w' : Value}

theorem wrongCount_alike (function : String) (expected : Arity) {args args' : List Value}
    (h : List.Forall₂ Value.Alike args args') :
    wrongCount function expected args = wrongCount function expected args' := by
  rw [wrongCount, wrongCount, h.length_eq]

theorem unary_alike (function : String) (h : v.Alike v') (f : Scalar → Except EvalError Scalar) :
    unary function v f = unary function v' f := by
  rw [unary, unary, h.ofValue_eq]

theorem broadcast_alike (function : String) (hv : v.Alike v') (hw : w.Alike w')
    (f : Scalar → Scalar → Except EvalError Scalar) :
    broadcast function v w f = broadcast function v' w' f := by
  rw [broadcast, broadcast, hv.ofValue_eq, hw.ofValue_eq]

end Operand

/-! ## The families of operations -/

section families

variable {args args' : List Value}

namespace Arithmetic

variable {v v' w w' : Value}

theorem multiplyValues_alike (hv : v.Alike v') (hw : w.Alike w') :
    multiplyValues v w = multiplyValues v' w' := by
  cases hv <;> cases hw <;> first | rfl | cases ‹Value› <;> rfl

theorem divideValues_alike (hv : v.Alike v') (hw : w.Alike w') :
    divideValues v w = divideValues v' w' := by
  cases hw with
  | same w =>
      cases w with
      | matrix m => rfl
      | _ => exact Operand.broadcast_alike _ hv (.same _) _
  | functions f g => exact Operand.broadcast_alike _ hv (.functions f g) _

theorem powValues_alike (hv : v.Alike v') (hw : w.Alike w') : powValues v w = powValues v' w' := by
  have hkind : Operand.unsupported "pow" w = Operand.unsupported "pow" w' := by
    rw [Operand.unsupported, Operand.unsupported, hw.kind_eq]
  rw [powValues, powValues, hv.ofValue_eq, hw.ofValue_eq, hkind]

theorem apply_alike (op : Arithmetic) (h : List.Forall₂ Value.Alike args args') :
    op.apply args = op.apply args' := by
  match args, args', h with
  | [], [], .nil => rfl
  | [_], [_], .cons hv .nil =>
      cases op with
      | unaryMinus => exact Operand.unary_alike _ hv _
      | unaryPlus => exact Operand.unary_alike _ hv _
      | _ => rfl
  | [_, _], [_, _], .cons hv (.cons hw .nil) =>
      cases op with
      | multiply => exact multiplyValues_alike hv hw
      | divide => exact divideValues_alike hv hw
      | pow => exact powValues_alike hv hw
      | unaryMinus | unaryPlus => rfl
      | _ => exact Operand.broadcast_alike _ hv hw _
  | _ :: _ :: _ :: _, _ :: _ :: _ :: _, h =>
      have hcount := Operand.wrongCount_alike op.name op.arity h
      -- three arguments and more are refused, and the message only counts them
      cases op <;> exact congrArg Except.error hcount

end Arithmetic

namespace Relation

variable {v v' w w' : Value}

theorem compareNumbers_alike (r : Relation) (hv : v.Alike v') (hw : w.Alike w') :
    r.compareNumbers v w = r.compareNumbers v' w' := by
  rw [compareNumbers, compareNumbers, Operand.broadcast_alike r.name hv hw]

theorem compare_alike (r : Relation) (hv : v.Alike v') (hw : w.Alike w') :
    r.compare v w = r.compare v' w' := by
  have hnumbers := compareNumbers_alike r hv hw
  cases hv with
  | same v =>
      cases hw with
      | same w => rfl
      | functions f g => cases v <;> simp only [compare, hnumbers]
  | functions f g =>
      cases hw with
      | same w => cases w <;> simp only [compare, hnumbers]
      | functions f' g' => exact hnumbers

theorem apply_alike (r : Relation) (h : List.Forall₂ Value.Alike args args') :
    r.apply args = r.apply args' := by
  match args, args', h with
  | [], [], .nil => rfl
  | [_], [_], .cons _ .nil => rfl
  | [_, _], [_, _], .cons hv (.cons hw .nil) => exact compare_alike r hv hw
  | _ :: _ :: _ :: _, _ :: _ :: _ :: _, h =>
      exact congrArg Except.error (Operand.wrongCount_alike r.name (.exactly 2) h)

end Relation

namespace Logic

theorem negate_alike {v w : Value} (h : v.Alike w) : negate v = negate w := by cases h <;> rfl

theorem apply_alike (op : Logic) (h : List.Forall₂ Value.Alike args args') :
    op.apply args = op.apply args' := by
  match args, args', h with
  | [], [], .nil => rfl
  | [_], [_], .cons hv .nil =>
      cases op with
      | not => exact negate_alike hv
      | _ => rfl
  | [_, _], [_, _], .cons hv (.cons hw .nil) =>
      cases op with
      | not => rfl
      | _ => rw [apply, apply, hv.truth_eq, hw.truth_eq]
  | _ :: _ :: _ :: _, _ :: _ :: _ :: _, h =>
      have hcount := Operand.wrongCount_alike op.name op.arity h
      cases op <;> exact congrArg Except.error hcount

end Logic

theorem Elementary.apply_alike (f : Elementary) (h : List.Forall₂ Value.Alike args args') :
    f.apply args = f.apply args' := by
  match args, args', h with
  | [], [], .nil => rfl
  | [_], [_], .cons hv .nil => exact Operand.unary_alike f.name hv _
  | _ :: _ :: _, _ :: _ :: _, h =>
      exact congrArg Except.error (Operand.wrongCount_alike f.name (.exactly 1) h)

theorem logarithm_alike (h : List.Forall₂ Value.Alike args args') :
    logarithm args = logarithm args' := by
  match args, args', h with
  | [], [], .nil => rfl
  | [_], [_], .cons hv .nil => exact Operand.unary_alike "log" hv _
  | [_, _], [_, _], .cons hv (.cons hw .nil) => exact Operand.broadcast_alike "log" hv hw _
  | _ :: _ :: _ :: _, _ :: _ :: _ :: _, h =>
      exact congrArg Except.error (Operand.wrongCount_alike "log" (.between 1 2) h)

theorem makeComplex_alike (h : List.Forall₂ Value.Alike args args') :
    makeComplex args = makeComplex args' := by
  match args, args', h with
  | [], [], .nil => rfl
  | [_], [_], .cons hv .nil => cases hv <;> rfl
  | [_, _], [_, _], .cons hv (.cons hw .nil) =>
      simp only [makeComplex, hv.toReal_eq, hw.toReal_eq]
  | _ :: _ :: _ :: _, _ :: _ :: _ :: _, h =>
      simp only [makeComplex, Operand.wrongCount_alike "complex" (.between 1 2) h]

namespace Construction

theorem transpose_alike {v w : Value} (h : v.Alike w) : transpose v = transpose w := by
  cases h <;> rfl

theorem size_alike {v w : Value} (h : v.Alike w) : size v = size w := by cases h <;> rfl

theorem nonzeros_alike {v w : Value} (h : v.Alike w) : nonzeros v = nonzeros w := by
  cases h <;> rfl

theorem matrix_alike (h : List.Forall₂ Value.Alike args args') : matrix args = matrix args' := by
  match args, args', h with
  | [], [], .nil => rfl
  | [_], [_], .cons hv .nil => cases hv <;> rfl
  | [_, _], [_, _], .cons hv (.cons hstorage .nil) =>
      simp only [matrix, hstorage.toText_eq, hv.toMatrix_eq]
  | [_, _, _], [_, _, _], .cons hv (.cons hstorage (.cons hdatatype .nil)) =>
      simp only [matrix, hstorage.toText_eq, hdatatype.toText_eq, hv.toMatrix_eq]
  | _ :: _ :: _ :: _ :: _, _ :: _ :: _ :: _ :: _, h =>
      simp only [matrix, Operand.wrongCount_alike "matrix" (.between 0 3) h]

theorem sparse_alike (h : List.Forall₂ Value.Alike args args') : sparse args = sparse args' := by
  match args, args', h with
  | [], [], .nil => rfl
  | [_], [_], .cons hv .nil => simp only [sparse, hv.toMatrix_eq]
  | [_, _], [_, _], .cons hv (.cons hdatatype .nil) =>
      simp only [sparse, hdatatype.toText_eq, hv.toMatrix_eq]
  | _ :: _ :: _ :: _, _ :: _ :: _ :: _, h =>
      exact congrArg Except.error (Operand.wrongCount_alike "sparse" (.between 0 2) h)

theorem extents_alike (h : List.Forall₂ Value.Alike args args') :
    extents args = extents args' := by
  have hcounts := mapM_alike (fun h => Value.Alike.toCount_eq h "zeros") h
  match args, args', h with
  | [], [], .nil => rfl
  | [_], [_], .cons hv .nil => cases hv <;> rfl
  | _ :: _ :: _, _ :: _ :: _, h => simp only [extents, hcounts]

theorem zeros_alike (h : List.Forall₂ Value.Alike args args') : zeros args = zeros args' := by
  rw [zeros, zeros, extents_alike h]

theorem identity_alike (h : List.Forall₂ Value.Alike args args') :
    identity args = identity args' := by
  match args, args', h with
  | [], [], .nil => rfl
  | [_], [_], .cons hn .nil => simp only [identity, hn.toCount_eq]
  | [_, _], [_, _], .cons hrows (.cons hcols .nil) =>
      simp only [identity, hrows.toCount_eq, hcols.toCount_eq]
  | _ :: _ :: _ :: _, _ :: _ :: _ :: _, h =>
      exact congrArg Except.error (Operand.wrongCount_alike "identity" (.between 1 2) h)

end Construction

/-! ## All operations -/

theorem Operation.applyOne_alike {op : Operation} {f : Value → Except EvalError Value}
    (hf : ∀ {v w : Value}, v.Alike w → f v = f w) (h : List.Forall₂ Value.Alike args args') :
    op.applyOne f args = op.applyOne f args' := by
  match args, args', h with
  | [], [], .nil => rfl
  | [_], [_], .cons hv .nil => exact hf hv
  | _ :: _ :: _, _ :: _ :: _, h =>
      exact congrArg Except.error (Operand.wrongCount_alike op.name op.arity h)

/-- **No standard operation tells functions apart.** -/
theorem Operation.apply_alike (op : Operation) (h : List.Forall₂ Value.Alike args args') :
    op.apply args = op.apply args' := by
  cases op with
  | arithmetic op => exact op.apply_alike h
  | relation r => exact r.apply_alike h
  | logic op => exact op.apply_alike h
  | elementary f => exact f.apply_alike h
  | log => exact logarithm_alike h
  | complex => exact makeComplex_alike h
  | ctranspose => exact applyOne_alike Value.Alike.ctranspose_eq h
  | transpose => exact applyOne_alike Construction.transpose_alike h
  | size => exact applyOne_alike (fun h => congrArg _ (Construction.size_alike h)) h
  | nnz => exact applyOne_alike Construction.nonzeros_alike h
  | matrix => exact congrArg (Except.map Value.matrix) (Construction.matrix_alike h)
  | sparse => exact congrArg (Except.map Value.matrix) (Construction.sparse_alike h)
  | zeros => exact congrArg (Except.map Value.matrix) (Construction.zeros_alike h)
  | identity => exact congrArg (Except.map Value.matrix) (Construction.identity_alike h)

/-- The standard library has no functions of a host. -/
theorem blind_standard : Blind Library.standard.registry :=
  fun f hf => absurd hf (Array.not_mem_empty f)

/-- **No entry of a blind namespace tells functions apart.** -/
theorem Entry.call_alike {registry : Registry} (blind : Blind registry) (entry : Entry)
    (h : List.Forall₂ Value.Alike args args') :
    entry.call registry args = entry.call registry args' := by
  have hperform : entry.perform registry args = entry.perform registry args' := by
    unfold perform
    split
    · exact Operation.apply_alike _ h
    · split
      · next f found => exact blind f (Array.mem_of_getElem? found) _ _ h
      · rfl
  rw [call, call, h.length_eq, hperform]

end families

end Formula
