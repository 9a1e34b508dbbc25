import Formula.Proofs.Eval.Moment

set_option autoImplicit false

/-! # An evaluation calls functions at its moments

The moments of an evaluation leave nothing out: it calls a function only where it comes to a call
whose arguments have their values and whose name stands for the function. So another way of calling
that does the same at these moments makes no difference, whatever it does elsewhere.
-/

namespace Formula

namespace Moment

variable {registry : Registry} {room : Nat} {call' : Eval.Caller Eval}

/-! ## Computations from a machine -/

section runs

variable {α β : Type} {m : Machine}

theorem bind_eq {x y : Eval α} {k l : α → Eval β} (h : x m = y m)
    (hk : ∀ a after, y m = (.ok a, after) → k a after = l a after) :
    (x >>= k) m = (y >>= l) m := by
  rw [Outcome.bind_apply, Outcome.bind_apply, h]
  cases hy : y m with
  | mk outcome after =>
      cases outcome with
      | error fault => rfl
      | ok a => exact hk a after hy

theorem ofExcept_bind_eq {o : Except EvalError α} {k l : α → Eval β}
    (hk : ∀ a, o = .ok a → k a m = l a m) :
    (Eval.ofExcept o >>= k) m = (Eval.ofExcept o >>= l) m := by
  cases o with
  | error fault => rfl
  | ok a => exact hk a rfl

end runs

/-! ## Agreement at moments -/

/-- If the code is a call that comes to calling a function, the other way of calling does what
evaluation does. -/
def CallsAlike (registry : Registry) (room : Nat) (call' : Eval.Caller Eval) (c : Code)
    (m : Machine) : Prop :=
  ∀ name fallback args values f after, c = .call name fallback args →
    Eval.codes registry (Eval.call registry room) args m = (.ok values, after) →
    after.scope.get? name = some (.function f) →
    call' f values (Word.succ after.scope.depth) after
      = Eval.call registry room f values (Word.succ after.scope.depth) after

/-- The other way of calling does what evaluation does at all moments of this frame that the
evaluation of the code comes to. -/
def Agrees (registry : Registry) (room : Nat) (call' : Eval.Caller Eval) (c : Code)
    (m : Machine) : Prop :=
  ∀ c' m', Comes registry ⟨none, room, c, m⟩ ⟨none, room, c', m'⟩ →
    CallsAlike registry room call' c' m'

/-- Agreement at all moments of several pieces of code that are evaluated in turn. -/
abbrev AgreesInTurn (registry : Registry) (room : Nat) (call' : Eval.Caller Eval) :
    List Code → Machine → Prop := AllInTurn registry room (Agrees registry room call')

section agrees

variable {c : Code} {m : Machine}

theorem Agrees.next {c' : Code} {m' : Machine} (h : Agrees registry room call' c m)
    (hnext : Leads registry ⟨none, room, c, m⟩ ⟨none, room, c', m'⟩) :
    Agrees registry room call' c' m' :=
  fun d n hcomes => h d n (Relation.ReflTransGen.head hnext hcomes)

theorem Agrees.parts (h : Agrees registry room call' c m) :
    AgreesInTurn registry room call' c.parts m := fun _ _ hpart => h.next (.part hpart)

end agrees

/-! ## Code -/

/-- A name is called alike where the function that it stands for is. -/
theorem callNamed_eq {name : String} {fallback : Option Entry} {values : List Value}
    {m : Machine} (h : ∀ f, m.scope.get? name = some (.function f) →
      call' f values (Word.succ m.scope.depth) m
        = Eval.call registry room f values (Word.succ m.scope.depth) m) :
    Eval.callNamed registry call' name fallback values m
      = Eval.callNamed registry (Eval.call registry room) name fallback values m := by
  refine bind_eq rfl fun s after hs => ?_
  cases hs
  cases found : m.scope.get? name with
  | none => cases fallback <;> rfl
  | some v =>
      cases v with
      | function f => exact h f found
      | null | boolean _ | number _ | complex _ | string _ | matrix _ => rfl

mutual

/-- **An evaluation depends on calls at its moments only.** -/
theorem code_eq_of_agrees (c : Code) (m : Machine) (h : Agrees registry room call' c m) :
    Eval.code registry call' c m = Eval.code registry (Eval.call registry room) c m := by
  match c with
  | .constant value => rw [Eval.code, Eval.code]
  | .symbol name => rw [Eval.code, Eval.code]
  | .builtin entry args =>
      rw [Eval.code, Eval.code]
      exact bind_eq (codes_eq_of_agrees args m h.parts) fun _ _ _ => rfl
  | .call name fallback args =>
      rw [Eval.code, Eval.code]
      refine bind_eq (codes_eq_of_agrees args m h.parts) fun values after hargs => ?_
      refine callNamed_eq fun f hf => ?_
      -- the call itself is made at this very moment, with the values of its arguments
      exact h _ m Relation.ReflTransGen.refl name fallback args values f after rfl hargs hf
  | .array items =>
      rw [Eval.code, Eval.code]
      exact bind_eq (codes_eq_of_agrees items m h.parts) fun _ _ _ => rfl
  | .assign name expr =>
      rw [Eval.code, Eval.code]
      exact bind_eq (code_eq_of_agrees expr m h.parts.head) fun _ _ _ => rfl
  | .block entries =>
      rw [Eval.code, Eval.code]
      exact blockEntries_eq_of_agrees entries .null m h.parts
  | .conditional condition whenTrue whenFalse =>
      rw [Eval.code, Eval.code]
      refine bind_eq (code_eq_of_agrees condition m h.parts.head) fun v after hv => ?_
      refine ofExcept_bind_eq fun b hb => ?_
      -- the branch that is taken is the next moment
      have hbranch := h.next (.branch hv hb)
      cases b with
      | true => exact code_eq_of_agrees whenTrue after hbranch
      | false => exact code_eq_of_agrees whenFalse after hbranch
  | .define name params body => rw [Eval.code, Eval.code]
  | .index object dimensions =>
      rw [Eval.code, Eval.code]
      refine bind_eq (code_eq_of_agrees object m h.parts.head) fun v after hv => ?_
      exact bind_eq (codes_eq_of_agrees dimensions after (h.parts.tail hv)) fun _ _ _ => rfl
  | .range start stop none =>
      rw [Eval.code, Eval.code]
      refine bind_eq (code_eq_of_agrees start m h.parts.head) fun v after hv => ?_
      refine ofExcept_bind_eq fun first _ => ?_
      exact bind_eq (code_eq_of_agrees stop after (h.parts.tail hv).head) fun _ _ _ => rfl
  | .range start stop (some step) =>
      rw [Eval.code, Eval.code]
      refine bind_eq (code_eq_of_agrees start m h.parts.head) fun v after hv => ?_
      refine ofExcept_bind_eq fun first _ => ?_
      have hstop := h.parts.tail hv
      refine bind_eq (code_eq_of_agrees stop after hstop.head) fun w later hw => ?_
      refine ofExcept_bind_eq fun last _ => ?_
      exact bind_eq (code_eq_of_agrees step later (hstop.tail hw).head) fun _ _ _ => rfl
  | .update name dimensions expr =>
      rw [Eval.code, Eval.code]
      refine bind_eq (codes_eq_of_agrees dimensions m h.parts.left) fun values after hvalues => ?_
      refine ofExcept_bind_eq fun lists _ => ?_
      exact bind_eq (code_eq_of_agrees expr after (h.parts.right hvalues).head) fun _ _ _ => rfl

theorem codes_eq_of_agrees (cs : List Code) (m : Machine)
    (h : AgreesInTurn registry room call' cs m) :
    Eval.codes registry call' cs m = Eval.codes registry (Eval.call registry room) cs m := by
  match cs with
  | [] => rw [Eval.codes, Eval.codes]
  | first :: rest =>
      rw [Eval.codes, Eval.codes]
      refine bind_eq (code_eq_of_agrees first m h.head) fun v after hv => ?_
      exact bind_eq (codes_eq_of_agrees rest after (h.tail hv)) fun _ _ _ => rfl

theorem blockEntries_eq_of_agrees (entries : List (Code × Bool)) (last : Value) (m : Machine)
    (h : AgreesInTurn registry room call' (entries.map Prod.fst) m) :
    Eval.blockEntries registry call' last entries m
      = Eval.blockEntries registry (Eval.call registry room) last entries m := by
  match entries with
  | [] => rw [Eval.blockEntries, Eval.blockEntries]
  | (first, visible) :: rest =>
      rw [Eval.blockEntries, Eval.blockEntries]
      refine bind_eq (code_eq_of_agrees first m h.head) fun v after hv => ?_
      exact blockEntries_eq_of_agrees rest _ after (h.tail hv)

end

end Moment

end Formula
