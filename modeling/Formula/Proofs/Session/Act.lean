import Formula.Proofs.Eval.Confined
import Formula.Proofs.Eval.Kept
import Formula.Session

set_option autoImplicit false

/-! # The history of a session

A host sets variables, evaluates trees and code, changes the limits and drops the variables. What a
session has become is the result of these acts one after the other. `act_cases` says all that an act
can do to the library, the scope and the number of functions made.
-/

namespace Formula

namespace Session

/-- What a host does with a session. -/
inductive Act where
  | set (name : String) (v : Value)
  | evaluate (tree : Node)
  | run (code : Code)
  | limitDepth (limit : UInt64)
  | limitElements (limit : Nat)
  | clear

/-- The session after an act. -/
def act (s : Session) : Act → Session
  | .set name v => s.set name v
  | .evaluate tree => (s.evaluate tree).2
  | .run code => (s.run code).2
  | .limitDepth limit => { s with scope := s.scope.withMaxDepth limit }
  | .limitElements limit => { s with scope := s.scope.withMaxElements limit }
  | .clear => s.clear

/-- The session after several acts. -/
def after (s : Session) (acts : List Act) : Session := acts.foldl act s

theorem after_concat (s : Session) (acts : List Act) (a : Act) :
    s.after (acts ++ [a]) = (s.after acts).act a := by
  rw [after, after, List.foldl_append, List.foldl_cons, List.foldl_nil]

/-- The machine that an evaluation in the session starts on. -/
def machine (s : Session) : Machine := ⟨s.scope, s.made, #[]⟩

/-- The machine after evaluating code in the session. -/
def performed (s : Session) (code : Code) : Machine :=
  (Eval.run s.library.registry code s.machine).2

/-! ## What an act changes -/

/-- What evaluating code does to a session, apart from what it reports and counts. -/
structure Performs (s : Session) (code : Code) (t : Session) : Prop where
  library_eq : t.library = s.library
  scope_eq : t.scope = (s.performed code).scope
  made_eq : t.made = (s.performed code).made

/-- However an evaluation ends, the session goes on with what it has left. -/
theorem performs_run (s : Session) (code : Code) : s.Performs code (s.run code).2 := by
  rw [run]
  dsimp only
  split
  · next fault after h =>
      have hafter := congrArg Prod.snd h
      subst hafter
      exact ⟨rfl, rfl, rfl⟩
  · next v after h =>
      have hafter := congrArg Prod.snd h
      subst hafter
      split <;> exact ⟨rfl, rfl, rfl⟩

/-- Compiling changes nothing but the journal. -/
theorem compile_snd (s : Session) (tree : Node) :
    (s.compile tree).2.library = s.library ∧ (s.compile tree).2.scope = s.scope ∧
      (s.compile tree).2.made = s.made := by
  rw [compile]
  dsimp only
  split <;> exact ⟨rfl, rfl, rfl⟩

/-- A tree that compiles is evaluated like its code, and one that does not changes no scope. -/
theorem evaluate_cases (s : Session) (tree : Node) :
    (∃ code, (s.compile tree).1 = .ok code ∧ s.Performs code (s.evaluate tree).2) ∨
      ((s.evaluate tree).2.library = s.library ∧ (s.evaluate tree).2.scope = s.scope ∧
        (s.evaluate tree).2.made = s.made) := by
  obtain ⟨hlibrary, hscope, hmade⟩ := s.compile_snd tree
  rw [evaluate]
  cases hcompile : s.compile tree with
  | mk outcome compiled =>
      rw [hcompile] at hlibrary hscope hmade
      cases outcome with
      | error fault => exact .inr ⟨hlibrary, hscope, hmade⟩
      | ok code =>
          refine .inl ⟨code, rfl, ?_⟩
          obtain ⟨hlibrary', hscope', hmade'⟩ := compiled.performs_run code
          -- compiling leaves what a run can see, so the code does the same before and after it
          have hperformed : compiled.performed code = s.performed code := by
            rw [performed, performed, machine, machine]
            dsimp only at hlibrary hscope hmade
            rw [hlibrary, hscope, hmade]
          rw [hperformed] at hscope' hmade'
          exact ⟨hlibrary'.trans hlibrary, hscope', hmade'⟩

/-- An act sets a variable, leaves what an evaluation has left, changes the limits, or drops the
variables. -/
theorem act_cases (s : Session) (a : Act) :
    (∃ name v, a = .set name v ∧ s.act a = s.set name v) ∨
    (∃ code, s.Performs code (s.act a)) ∨
    ((s.act a).library = s.library ∧ (s.act a).made = s.made ∧
      (s.act a).scope.vars = s.scope.vars ∧ (s.act a).scope.depth = s.scope.depth) ∨
    (a = .clear ∧ s.act a = s.clear) := by
  cases a with
  | set name v => exact .inl ⟨name, v, rfl, rfl⟩
  | run code => exact .inr (.inl ⟨code, s.performs_run code⟩)
  | evaluate tree =>
      rcases s.evaluate_cases tree with ⟨code, -, h⟩ | ⟨hlibrary, hscope, hmade⟩
      · exact .inr (.inl ⟨code, h⟩)
      · refine .inr (.inr (.inl ⟨hlibrary, hmade, ?_, ?_⟩))
        · exact congrArg Scope.vars hscope
        · exact congrArg Scope.depth hscope
  | limitDepth limit => exact .inr (.inr (.inl ⟨rfl, rfl, rfl, rfl⟩))
  | limitElements limit => exact .inr (.inr (.inl ⟨rfl, rfl, rfl, rfl⟩))
  | clear => exact .inr (.inr (.inr ⟨rfl, rfl⟩))

theorem library_act (s : Session) (a : Act) : (s.act a).library = s.library := by
  rcases s.act_cases a with ⟨name, v, -, h⟩ | ⟨code, h⟩ | ⟨h, -⟩ | ⟨-, h⟩
  · rw [h]
    rfl
  · exact h.library_eq
  · exact h
  · rw [h]
    rfl

theorem library_after (s : Session) (acts : List Act) : (s.after acts).library = s.library := by
  induction acts generalizing s with
  | nil => rfl
  | cons a rest ih => exact (ih (s.act a)).trans (s.library_act a)

/-- An evaluation leaves the depth and the limits of the session's scope as they are. -/
theorem Performs.confined {s t : Session} {code : Code} (h : s.Performs code t) :
    s.scope.Confined (fun _ => True) t.scope := by
  rw [h.scope_eq]
  exact Eval.code_confined (Eval.confined_call s.library.registry Word.last) code
    (fun _ _ => trivial) s.machine

/-- No act changes the depth of the session's scope, which is the top level. -/
theorem depth_act (s : Session) (a : Act) (h : s.scope.depth = 0) : (s.act a).scope.depth = 0 := by
  rcases s.act_cases a with ⟨name, v, -, ha⟩ | ⟨code, ha⟩ | ⟨-, -, -, ha⟩ | ⟨-, ha⟩
  · rw [ha]
    exact h
  · rw [ha.confined.depth_eq, h]
  · rw [ha, h]
  · rw [ha]
    rfl

theorem depth_after (s : Session) (acts : List Act) (h : s.scope.depth = 0) :
    (s.after acts).scope.depth = 0 := by
  induction acts generalizing s with
  | nil => exact h
  | cons a rest ih => exact ih (s.act a) (s.depth_act a h)

/-- No act makes the limit on elements larger than any may be. -/
theorem maxElements_act (s : Session) (a : Act) (h : s.scope.maxElements ≤ maxElements) :
    (s.act a).scope.maxElements ≤ maxElements := by
  cases a with
  | set name v => exact h
  | run code => exact Nat.le_trans (Nat.le_of_eq (s.performs_run code).confined.maxElements_eq) h
  | evaluate tree =>
      rcases s.evaluate_cases tree with ⟨code, -, ht⟩ | ⟨-, hscope, -⟩
      · exact Nat.le_trans (Nat.le_of_eq ht.confined.maxElements_eq) h
      · exact Nat.le_trans (Nat.le_of_eq (congrArg Scope.maxElements hscope)) h
  | limitDepth limit => exact h
  | limitElements limit => exact Nat.min_le_right limit maxElements
  | clear => exact h

theorem maxElements_after (s : Session) (acts : List Act) (h : s.scope.maxElements ≤ maxElements) :
    (s.after acts).scope.maxElements ≤ maxElements := by
  induction acts generalizing s with
  | nil => exact h
  | cons a rest ih => exact ih (s.act a) (s.maxElements_act a h)

end Session

/-- The standard constants are no functions. -/
theorem Scope.all_standard (P : Closure Value → Prop) : Table.All P Scope.standard.vars := by
  have hconstants : ∀ e ∈ constants, e.2.All P := by
    intro e he
    refine Value.all_of_kind ?_
    simp only [constants, List.mem_cons, List.not_mem_nil, or_false] at he
    rcases he with rfl | rfl | rfl | rfl | rfl | rfl | rfl <;> nofun
  exact Table.All.insertAll nofun hconstants

end Formula
