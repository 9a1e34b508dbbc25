import Formula.Log.Event

set_option autoImplicit false

/-! # Log filters

A filter says from which level on the events of each part of the program are kept. It is written
as a list of directives with commas between them:

    directive = level  |  target  |  target "=" level?
    level     = "trace" | "debug" | "info" | "warn" | "error" | "off" | "0" … "5"

in any mixture of cases for the level. A level alone is for all targets, a target alone keeps all
of its events. A target stands for all targets that start with it; of several directives for one
target the longest counts, and of two for the same the last. A filter without directives keeps
errors only.
-/

namespace Formula

/-- Keeps the events of some targets up to some detail. -/
structure Directive where
  target : String
  detail : Nat
  deriving Repr, DecidableEq

/-- A list of directives. -/
structure Filter where
  directives : List Directive
  deriving Repr, DecidableEq

namespace Filter

/-- The detail of a level; zero keeps nothing. -/
def readDetail? (text : String) : Option Nat :=
  match String.ofList (text.toList.map Char.toLower) with
  | "off" => some 0
  | "error" => some 1
  | "warn" => some 2
  | "info" => some 3
  | "debug" => some 4
  | "trace" => some 5
  | "0" => some 0
  | "1" => some 1
  | "2" => some 2
  | "3" => some 3
  | "4" => some 4
  | "5" => some 5
  | _ => none

/-- May a target hold this character? -/
def isTargetChar (c : Char) : Bool :=
  c.isAlphanum || c == '_' || c == ':' || c == '-' || 128 ≤ c.toNat

/-- One directive. -/
def readDirective? (text : String) : Option Directive :=
  match readDetail? text with
  | some detail => some ⟨"", detail⟩
  | none =>
      let target := text.toList.takeWhile isTargetChar
      match text.toList.dropWhile isTargetChar with
      | [] => some ⟨String.ofList target, 5⟩
      | '=' :: rest =>
          if target = [] then none
          else if rest = [] then some ⟨String.ofList target, 5⟩
          else (readDetail? (String.ofList rest)).map (⟨String.ofList target, ·⟩)
      | _ => none

/-- The filter that a text describes. -/
def parse? (text : String) : Option Filter :=
  let parts := (text.splitOn ",").filter fun part => part != ""
  if parts = [] then some ⟨[⟨"", 1⟩]⟩ else (parts.mapM readDirective?).map (⟨·⟩)

/-- The filter that keeps events from a level on, whatever their target. -/
def ofLevel (level : Level) : Filter := ⟨[⟨"", level.detail⟩]⟩

/-- The directive that counts for a target. -/
def decisive (target : String) : List Directive → Option Directive
  | [] => none
  | d :: rest =>
      match decisive target rest with
      | some best =>
          if d.target.isPrefixOf target && best.target.length < d.target.length then some d
          else some best
      | none => if d.target.isPrefixOf target then some d else none

/-- Is an event of this level and target kept? -/
def keeps (f : Filter) (level : Level) (target : String) : Bool :=
  match decisive target f.directives with
  | some d => level.detail ≤ d.detail
  | none => false

end Filter

end Formula
