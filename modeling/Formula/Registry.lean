import Formula.Log.Event
import Formula.Standard.Basic

set_option autoImplicit false

/-! # Registered functions

A host can add functions of its own to a namespace. A registry keeps what they do, each under its
number; it only grows, so code that was compiled against an entry keeps the function of that
entry, whatever the namespace later holds under its name.

A `Library` is a namespace together with the registry that its entries refer to.
-/

namespace Formula

/-- A function of a host. -/
abbrev HostFunction := List Value → Except EvalError Value

/-- The functions of a host by their numbers. -/
abbrev Registry := Array HostFunction

namespace Entry

/-- What an entry computes from arguments that its arity accepts. -/
def perform (entry : Entry) (registry : Registry) (args : List Value) : Except EvalError Value :=
  match entry.action with
  | .operation op => op.apply args
  | .registered number =>
      match registry[number]? with
      | some f => f args
      | none => .error (.undefinedSymbol entry.name)

/-- Calls an entry. -/
def call (entry : Entry) (registry : Registry) (args : List Value) : Except EvalError Value :=
  if entry.arity.accepts args.length then entry.perform registry args
  else .error (.argument (.arity entry.name entry.arity args.length))

/-- What a call of an entry with this result reports. -/
def reported (entry : Entry) : Except EvalError Value → List Event
  | .ok (.matrix m) =>
      if entry.action = .operation .matrix then [.built m.storageKind m.shape] else []
  | _ => []

end Entry

/-- A namespace and the functions its entries refer to. -/
structure Library where
  entries : Namespace
  registry : Registry

namespace Library

/-- The library without functions. -/
def empty : Library := ⟨[], #[]⟩

/-- The library of the standard operations. -/
def standard : Library := ⟨.standard, #[]⟩

/-- Adds a function of a host, in place of any other of its name. -/
def register (lib : Library) (name : String) (arity : Arity) (f : HostFunction) : Library :=
  { entries := lib.entries.add ⟨name, arity, .registered lib.registry.size⟩
    registry := lib.registry.push f }

/-- Adds another name for a function, if there is such a function. -/
def alias? (lib : Library) (name target : String) : Option Library :=
  (lib.entries.alias? name target).map fun entries => { lib with entries := entries }

/-- Removes a function from the namespace. -/
def remove (lib : Library) (name : String) : Library :=
  { lib with entries := lib.entries.erase name }

/-- The entry of a function whose registry is appended to one of the given size. -/
def shifted (size : Nat) (entry : Entry) : Entry :=
  match entry.action with
  | .operation _ => entry
  | .registered number => { entry with action := .registered (size + number) }

/-- Adds all functions of another library, in place of those of the same names. -/
def extend (lib other : Library) : Library :=
  let moved := other.entries.map fun e => (e.1, shifted lib.registry.size e.2)
  { entries := lib.entries.insertAll moved
    registry := lib.registry ++ other.registry }

end Library

end Formula
