import Formula.Proofs.Outcome
import Formula.Proofs.Standard
import Formula.Proofs.Value.Deepest

set_option autoImplicit false

/-! # What an evaluation keeps in its frame

An evaluation in a frame never changes the depth of the frame. It brings no function within reach
that has a larger limit than those that the frame reached before, because nothing but a function
assignment makes functions, and the new one is made of the frame.
-/

namespace Formula

/-- The machine's frame has this depth and reaches no limit above `M`. -/
structure Machine.Fits (M depth : Nat) (m : Machine) : Prop where
  depth_eq : m.scope.depth = depth
  deepest_le : m.scope.deepest ≤ M

/-- The value reaches no limit above `M`. -/
def Value.Within (M : Nat) (v : Value) : Prop := v.deepest ≤ M

theorem Value.within_of_kind {M : Nat} {v : Value} (h : v.kind ≠ .function) : v.Within M := by
  rw [Within, deepest_of_kind h]
  exact Nat.zero_le M

namespace Eval

variable {M depth : Nat} {α β : Type}

/-- The evaluation keeps the frame as it is required to be, and its results satisfy `good`. -/
def Keeps (M depth : Nat) (good : α → Prop) (x : Eval α) : Prop :=
  ∀ m : Machine, m.Fits M depth → (x m).2.Fits M depth ∧ ∀ a, (x m).1 = .ok a → good a

theorem keeps_pure {good : α → Prop} {a : α} (h : good a) : Keeps M depth good (pure a) := by
  intro m hm
  refine ⟨hm, fun b hb => ?_⟩
  cases hb
  exact h

theorem keeps_bind {good : α → Prop} {good' : β → Prop} {x : Eval α} {k : α → Eval β}
    (hx : Keeps M depth good x) (hk : ∀ a, good a → Keeps M depth good' (k a)) :
    Keeps M depth good' (x >>= k) := by
  intro m hm
  obtain ⟨hafter, hgood⟩ := hx m hm
  rw [Outcome.bind_apply]
  cases h : (x m).1 with
  | error fault => exact ⟨hafter, nofun⟩
  | ok a => exact hk a (hgood a h) _ hafter

theorem keeps_scope : Keeps M depth (fun s => s.depth = depth ∧ s.deepest ≤ M) scope := by
  intro m hm
  refine ⟨hm, fun s hs => ?_⟩
  cases hs
  exact ⟨hm.depth_eq, hm.deepest_le⟩

theorem keeps_report (events : List Event) : Keeps M depth (fun _ => True) (report events) :=
  fun _ hm => ⟨⟨hm.depth_eq, hm.deepest_le⟩, fun _ _ => trivial⟩

theorem keeps_fail (good : α → Prop) (fault : EvalError) : Keeps M depth good (fail fault) :=
  fun _ hm => ⟨hm, nofun⟩

theorem keeps_ofExcept {good : α → Prop} {outcome : Except EvalError α}
    (h : ∀ a, outcome = .ok a → good a) : Keeps M depth good (ofExcept outcome) := by
  intro m hm
  cases outcome with
  | error fault => exact ⟨hm, nofun⟩
  | ok a => exact ⟨hm, h⟩

/-- A value that is no function stays within any bound. -/
theorem keeps_plain {outcome : Except EvalError Value} (h : Plain outcome) :
    Keeps M depth (Value.Within M) (ofExcept outcome) :=
  keeps_ofExcept fun v hv => Value.within_of_kind (h v hv)

theorem keeps_assign {v : Value} (hv : v.Within M) (name : String) :
    Keeps M depth (fun _ => True) (assign name v) := fun _ hm =>
  ⟨⟨hm.depth_eq, Scope.deepest_set_le hm.deepest_le hv⟩, fun _ _ => trivial⟩

theorem keeps_freshStamp : Keeps M depth (fun _ => True) freshStamp :=
  fun _ hm => ⟨⟨hm.depth_eq, hm.deepest_le⟩, fun _ _ => trivial⟩

theorem keeps_callEntry {registry : Registry} (closed : Sealed registry) (entry : Entry)
    (args : List Value) : Keeps M depth (Value.Within M) (callEntry registry entry args) :=
  keeps_bind (keeps_report _) fun _ _ => keeps_plain (entry.call_plain closed args)

theorem keeps_updateVariable (name : String) (lists : List (List Nat)) (v : Value) :
    Keeps M depth (fun _ => True) (updateVariable name lists v) := by
  have ignore {γ : Type} (outcome : Except EvalError γ) :
      Keeps M depth (fun _ => True) (ofExcept outcome) := keeps_ofExcept fun _ _ => trivial
  refine keeps_bind keeps_scope fun s _ => ?_
  refine keeps_bind (ignore (variableMatrix s name)) fun m _ => ?_
  refine keeps_bind (ignore (replacement v)) fun r _ => ?_
  refine keeps_bind (ignore (checkGrowth m lists s.maxElements)) fun _ _ => ?_
  refine keeps_bind (keeps_report (growthEvents m lists r)) fun _ _ => ?_
  refine keeps_bind (ignore (m.setSubset lists r).1) fun _ _ => ?_
  exact keeps_assign (@Value.within_of_kind M (.matrix _) nofun) name

end Eval

end Formula
