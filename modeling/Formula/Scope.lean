import Formula.Table
import Formula.Value.Basic

set_option autoImplicit false

/-! # Scopes

A scope holds the variables that an evaluation reads and writes, the depth of the function call it
belongs to, and two limits: on that depth, and on the number of elements that a range or the
growth of a matrix may produce. A function keeps a snapshot of the scope it is defined in, and
each call of it runs in a new frame made from the snapshot, so nothing that a body assigns is seen
outside of the call.
-/

namespace Formula

/-- Variables and limits. -/
structure Scope where
  vars : Table Value
  depth : Nat
  maxDepth : UInt64
  maxElements : Nat

namespace Scope

/-- The depth of calls allowed where nothing else is said. -/
def defaultMaxDepth : UInt64 := 256

/-- A scope without variables. -/
def empty : Scope := ⟨[], 0, defaultMaxDepth, Formula.maxElements⟩

instance : Inhabited Scope := ⟨empty⟩

/-- The value of a variable. -/
def get? (s : Scope) (name : String) : Option Value := s.vars.find? name

/-- Gives a variable a value. -/
def set (s : Scope) (name : String) (v : Value) : Scope := { s with vars := s.vars.insert name v }

/-- Removes a variable. -/
def erase (s : Scope) (name : String) : Scope := { s with vars := s.vars.erase name }

/-- Removes all variables. -/
def clear (s : Scope) : Scope := { s with vars := [] }

/-- Gives several variables values, one after the other. -/
def setAll (s : Scope) (bindings : List (String × Value)) : Scope :=
  { s with vars := s.vars.insertAll bindings }

/-- The scope with another limit on the depth of calls. -/
def withMaxDepth (s : Scope) (limit : UInt64) : Scope := { s with maxDepth := limit }

/-- The scope with another limit on elements, which is never above `maxElements`. -/
def withMaxElements (s : Scope) (limit : Nat) : Scope :=
  { s with maxElements := min limit Formula.maxElements }

/-- Do two scopes have the same depth and limits and equal variables? -/
def equals (s t : Scope) : Bool :=
  s.vars == t.vars && s.depth == t.depth && s.maxDepth == t.maxDepth &&
    s.maxElements == t.maxElements

/-- The function that a definition makes: a snapshot of the scope with a stamp. -/
def snapshot (s : Scope) (name : String) (params : List String) (body : Code) (stamp : Nat) :
    Closure Value :=
  { name := name
    params := params
    body := body
    vars := s.vars
    maxDepth := s.maxDepth
    maxElements := s.maxElements
    stamp := stamp }

end Scope

/-- The frame that a call runs in: the variables of the snapshot, the function itself under its
own name, and the arguments under the names of the parameters. -/
def Closure.frame (f : Closure Value) (args : List Value) (depth : Nat) : Scope :=
  { vars := Table.insertAll (Table.insert f.vars f.name (.function f)) (f.params.zip args)
    depth := depth
    maxDepth := f.maxDepth
    maxElements := f.maxElements }

end Formula
