set_option autoImplicit false

/-! # Documents

The data that JSON, YAML and TOML texts have in common: null, truth values, numbers, strings,
sequences and mappings. The entries of a mapping keep the order and the repetitions of the text
they were read from.
-/

namespace Formula

/-- Is `n` an integer of `bits` bits, its sign included? -/
def fitsSigned (bits : Nat) (n : Int) : Bool :=
  let bound := Int.ofNat (1 <<< (bits - 1))
  decide (-bound ≤ n ∧ n < bound)

/-- Is `n` a natural number of `bits` bits? -/
def fitsUnsigned (bits : Nat) (n : Int) : Bool := decide (0 ≤ n ∧ n < Int.ofNat (1 <<< bits))

/-- Structured data. -/
inductive Document where
  | null
  | bool (b : Bool)
  | integer (n : Int)
  | real (x : Float)
  | string (s : String)
  | sequence (items : List Document)
  | mapping (entries : List (String × Document))
  deriving Repr, Inhabited

/-- Why a document cannot be read as what it should hold. -/
inductive ShapeFault (ε : Type) where
  /-- Something is missing, repeated or of the wrong kind. -/
  | shape
  /-- The parts are right but do not go together. -/
  | content (fault : ε)
  deriving Repr, DecidableEq

namespace Document

/-- The values given to a key. -/
def valuesOf (key : String) (entries : List (String × Document)) : List Document :=
  (entries.filter fun e => e.1 == key).map Prod.snd

/-- The string that a document is. -/
def string? : Document → Option String
  | .string s => some s
  | _ => none

/-- The truth value that a document is. -/
def bool? : Document → Option Bool
  | .bool b => some b
  | _ => none

mutual

/-- Do all scalars of a document satisfy a condition? -/
def all (p : Document → Bool) : Document → Bool
  | .sequence items => allItems p items
  | .mapping entries => allEntries p entries
  | d => p d

/-- Do all scalars of several documents satisfy a condition? -/
def allItems (p : Document → Bool) : List Document → Bool
  | [] => true
  | d :: rest => all p d && allItems p rest

/-- Do all scalars of the values of some entries satisfy a condition? -/
def allEntries (p : Document → Bool) : List (String × Document) → Bool
  | [] => true
  | (_, d) :: rest => all p d && allEntries p rest

end

end Document

end Formula
