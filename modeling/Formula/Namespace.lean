import Formula.Operation
import Formula.Table

set_option autoImplicit false

/-! # Namespaces

A namespace says which functions a tree may call and with how many arguments. An entry has a name,
an arity and an action; the action is a standard operation or a function that a host has
registered, which is known here by its number only. An alias is an entry of its own with the
action of another one.
-/

namespace Formula

/-- What calling an entry does. -/
inductive Action where
  | operation (op : Operation)
  /-- The function registered under a number. -/
  | registered (number : Nat)
  deriving Repr, DecidableEq, Inhabited

/-- A function that trees can call. -/
structure Entry where
  name : String
  arity : Arity
  action : Action
  deriving Repr, DecidableEq, Inhabited

/-- Entries by their names. -/
abbrev Namespace := Table Entry

namespace Namespace

/-- The entry of a standard operation. -/
def ofOperation (op : Operation) : Entry := ⟨op.name, op.arity, .operation op⟩

/-- The namespace of all standard operations. -/
def standard : Namespace := Table.ofList (Operation.all.map fun op => (op.name, ofOperation op))

/-- Adds an entry under its name. -/
def add (entries : Namespace) (entry : Entry) : Namespace := entries.insert entry.name entry

/-- Adds another name for an entry; nothing if there is no such entry. -/
def alias? (entries : Namespace) (name target : String) : Option Namespace :=
  (entries.find? target).map fun entry => add entries { entry with name := name }

end Namespace

end Formula
