import Formula.Proofs.Table
import Formula.Scope

set_option autoImplicit false

/-! # The deepest limit within reach

A function value can be called, and so can every function in its snapshot, and in the snapshots of
those. `deepest` is the largest of their limits on the depth of calls. No evaluation makes it
larger: a function that a body defines captures the limit and the variables of the frame that the
body runs in, and both come from a snapshot.
-/

namespace Formula

mutual

/-- The largest limit of a function within reach of a value, `0` if there is none. -/
def Value.deepest : Value → Nat
  | .function f => f.deepest
  | _ => 0

/-- The largest limit of a function within reach of a closure, which is within its own reach. -/
def Closure.deepest : Closure Value → Nat
  | ⟨_, _, _, vars, maxDepth, _, _⟩ => max maxDepth.toNat (Table.deepest vars)

/-- The largest limit of a function within reach of some variables. -/
def Table.deepest : List (String × Value) → Nat
  | [] => 0
  | (_, v) :: rest => max v.deepest (Table.deepest rest)

end

/-- The largest limit within reach of a scope. The limit of the scope itself is one, because a
function defined in the scope captures it. -/
def Scope.deepest (s : Scope) : Nat := max s.maxDepth.toNat (Table.deepest s.vars)

/-- Values that are no functions have nothing to be called within reach. -/
theorem Value.deepest_of_kind {v : Value} (h : v.kind ≠ .function) : v.deepest = 0 := by
  cases v with
  | function f => exact absurd rfl h
  | null | boolean _ | number _ | complex _ | string _ | matrix _ => rfl

theorem Closure.deepest_eq (f : Closure Value) :
    f.deepest = max f.maxDepth.toNat (Table.deepest f.vars) := by
  cases f
  rw [Closure.deepest]

theorem Closure.maxDepth_le {M : Nat} {f : Closure Value} (h : f.deepest ≤ M) :
    f.maxDepth.toNat ≤ M := by
  rw [deepest_eq, Nat.max_le] at h
  exact h.1

/-! ## What is within reach -/

/-- Within reach of a function value are the function and what is within reach of its snapshot. -/
inductive Value.Reaches : Value → Closure Value → Prop where
  | itself (f : Closure Value) : Reaches (.function f) f
  | captured {f g : Closure Value} {name : String} {v : Value} (hv : (name, v) ∈ f.vars)
      (h : Reaches v g) : Reaches (.function f) g

mutual

/-- The largest limit is the least bound of the limits within reach. -/
theorem Value.deepest_le_iff {M : Nat} (v : Value) :
    v.deepest ≤ M ↔ ∀ f, v.Reaches f → f.maxDepth.toNat ≤ M := by
  match v with
  | .function ⟨name, params, body, vars, maxDepth, maxElements, stamp⟩ =>
      rw [Value.deepest, Closure.deepest, Nat.max_le, Table.deepest_le_iff_reaches vars]
      constructor
      · rintro ⟨hown, hvars⟩ g (_ | ⟨hv, h⟩)
        · exact hown
        · exact hvars _ hv g h
      · intro hall
        exact ⟨hall _ (.itself _), fun e he g h => hall g (.captured he h)⟩
  | .null | .boolean _ | .number _ | .complex _ | .string _ | .matrix _ =>
      exact ⟨fun _ => nofun, fun _ => Nat.zero_le M⟩

theorem Table.deepest_le_iff_reaches {M : Nat} (vars : List (String × Value)) :
    Table.deepest vars ≤ M ↔ ∀ e ∈ vars, ∀ f, e.2.Reaches f → f.maxDepth.toNat ≤ M := by
  match vars with
  | [] => exact ⟨fun _ => nofun, fun _ => Nat.zero_le M⟩
  | (_, v) :: rest =>
      rw [Table.deepest, Nat.max_le, v.deepest_le_iff, Table.deepest_le_iff_reaches rest,
        List.forall_mem_cons]

end

/-- The largest limit within reach of a scope is the least bound of its own limit and of those
within reach of its variables. -/
theorem Scope.deepest_le_iff_reaches {M : Nat} (s : Scope) :
    s.deepest ≤ M ↔ s.maxDepth.toNat ≤ M ∧
      ∀ e ∈ s.vars, ∀ f, e.2.Reaches f → f.maxDepth.toNat ≤ M := by
  rw [deepest, Nat.max_le, Table.deepest_le_iff_reaches]

/-- Limits are 64-bit counts, and so is the largest of them. -/
theorem Scope.deepest_le_last (s : Scope) : s.deepest ≤ Word.last := by
  have hcount (limit : UInt64) : limit.toNat ≤ Word.last := Nat.le_pred_of_lt limit.toNat_lt
  exact s.deepest_le_iff_reaches.mpr ⟨hcount _, fun _ _ f _ => hcount f.maxDepth⟩

/-! ## Variables -/

namespace Table

variable {M : Nat}

/-- A bound on the variables is a bound on each of them. -/
theorem deepest_le_iff {vars : Table Value} :
    deepest vars ≤ M ↔ ∀ e ∈ vars, e.2.deepest ≤ M := by
  simp only [deepest_le_iff_reaches, Value.deepest_le_iff]

/-- What a variable holds is within reach of the variables. -/
theorem deepest_of_find? {vars : Table Value} {name : String} {v : Value}
    (small : deepest vars ≤ M) (found : vars.find? name = some v) : v.deepest ≤ M :=
  deepest_le_iff.mp small _ (mem_of_find? found)

theorem deepest_insert_le {vars : Table Value} {name : String} {v : Value}
    (small : deepest vars ≤ M) (hv : v.deepest ≤ M) : deepest (vars.insert name v) ≤ M := by
  rw [deepest_le_iff] at small ⊢
  intro e he
  rcases mem_insert he with rfl | he
  · exact hv
  · exact small e he

theorem deepest_insertAll_le {vars : Table Value} {entries : List (String × Value)}
    (small : deepest vars ≤ M) (hentries : ∀ e ∈ entries, e.2.deepest ≤ M) :
    deepest (vars.insertAll entries) ≤ M := by
  rw [insertAll]
  induction entries generalizing vars with
  | nil => exact small
  | cons e rest ih =>
      rw [List.forall_mem_cons] at hentries
      exact ih (deepest_insert_le small hentries.1) hentries.2

end Table

/-! ## Scopes -/

namespace Scope

variable {M : Nat} {s : Scope}

theorem deepest_le_iff : s.deepest ≤ M ↔ s.maxDepth.toNat ≤ M ∧ Table.deepest s.vars ≤ M :=
  Nat.max_le

theorem deepest_of_get? {name : String} {v : Value} (small : s.deepest ≤ M)
    (found : s.get? name = some v) : v.deepest ≤ M :=
  Table.deepest_of_find? (deepest_le_iff.mp small).2 found

theorem deepest_set_le {name : String} {v : Value} (small : s.deepest ≤ M)
    (hv : v.deepest ≤ M) : (s.set name v).deepest ≤ M := by
  rw [deepest_le_iff] at small ⊢
  exact ⟨small.1, Table.deepest_insert_le small.2 hv⟩

/-- A new function reaches no further than the scope it is defined in. -/
theorem deepest_snapshot (s : Scope) (name : String) (params : List String) (body : Code)
    (stamp : Nat) : (s.snapshot name params body stamp).deepest = s.deepest :=
  Closure.deepest_eq _

end Scope

/-- A frame reaches no further than the function that is called and its arguments. -/
theorem Closure.deepest_frame_le {M : Nat} {f : Closure Value} {args : List Value}
    (hf : f.deepest ≤ M) (hargs : ∀ v ∈ args, v.deepest ≤ M) (depth : Nat) :
    (f.frame args depth).deepest ≤ M := by
  have own : (Value.function f).deepest ≤ M := by
    rw [Value.deepest]
    exact hf
  rw [Closure.deepest_eq, Nat.max_le] at hf
  refine Scope.deepest_le_iff.mpr ⟨hf.1, ?_⟩
  refine Table.deepest_insertAll_le (Table.deepest_insert_le hf.2 own) fun e he => ?_
  exact hargs e.2 (List.of_mem_zip he).2

end Formula
