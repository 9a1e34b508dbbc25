import Formula.Format.Json
import Formula.Table
import Formula.Text.Blank
import Formula.Value.Basic

set_option autoImplicit false

/-! # Bindings

A binding `name=value` gives a variable a value. The value is read as JSON: null, truth values,
numbers, strings, and arrays of numbers, which are matrices. A text that is not JSON is a string.
Blanks around the name and the value do not count.
-/

namespace Formula.Binding

/-- Why a text is no binding. -/
inductive Fault where
  | noEquals (text : String)
  | noName (text : String)
  /-- An object is no value. -/
  | object (name : String)
  /-- An item of an array is no number. -/
  | notNumber (name : String) (item : Document)
  /-- The items of an array do not make a matrix. -/
  | matrix (name : String) (fault : EvalError)

/-- The entries of an object as it is shown: in the order of their keys, the last one of a key. -/
def shownEntries (entries : List (String × Document)) : List (String × Document) :=
  Table.ofList entries

mutual

/-- A document as it is shown. -/
def shown : Document → Document
  | .sequence items => .sequence (shownAll items)
  | .mapping entries => .mapping (shownEntries (shownMembers entries))
  | d => d

/-- Several documents as they are shown. -/
def shownAll : List Document → List Document
  | [] => []
  | d :: rest => shown d :: shownAll rest

/-- Entries as they are shown, in their own order. -/
def shownMembers : List (String × Document) → List (String × Document)
  | [] => []
  | (key, d) :: rest => (key, shown d) :: shownMembers rest

end

/-- The text of a fault. -/
def Fault.message : Fault → String
  | .noEquals text => s!"Expected name=value, got \"{text}\""
  | .noName text => s!"Missing variable name in \"{text}\""
  | .object name => s!"Invalid value for {name}: objects cannot be bound to variables"
  | .notNumber name item =>
      s!"Invalid value for {name}: expected a number, got " ++ Json.write (shown item)
  | .matrix name fault => s!"Invalid value for {name}: {fault.message}"

mutual

/-- The nested sequence of numbers that an item of an array is; otherwise the item that is no
number. -/
def nested : Document → Except Document Nested
  | .sequence items => (nestedAll items).map .seq
  | .integer n => .ok (.scalar (.real (Binary64.ofInt n)))
  | .real x => .ok (.scalar (.real x))
  | d => .error d

/-- The nested sequences that several items are. -/
def nestedAll : List Document → Except Document (List Nested)
  | [] => .ok []
  | d :: rest => do
      let first ← nested d
      (nestedAll rest).map (first :: ·)

end

/-- The value that a document stands for. -/
def valueOf (name : String) : Document → Except Fault Value
  | .null => .ok .null
  | .bool b => .ok (.boolean b)
  | .integer n => .ok (.number (Binary64.ofInt n))
  | .real x => .ok (.number x)
  | .string s => .ok (.string s)
  | .mapping _ => .error (.object name)
  | .sequence items =>
      match nested (.sequence items) with
      | .error item => .error (.notNumber name item)
      | .ok n => ((Matrix.ofNested n).map Value.matrix).mapError (.matrix name)

/-- Reads a binding. -/
def parse (text : String) : Except Fault (String × Value) :=
  let cs := text.toList
  match cs.dropWhile (· != '=') with
  | [] => .error (.noEquals text)
  | _ :: behind =>
      let name := String.ofList (Text.trimChars (cs.takeWhile (· != '=')))
      if name = "" then .error (.noName text)
      else
        let raw := String.ofList (Text.trimChars behind)
        match Json.parse raw with
        | some d => (valueOf name d).map (name, ·)
        | none => .ok (name, .string raw)

end Formula.Binding
