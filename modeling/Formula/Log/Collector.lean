import Formula.Document
import Formula.Log.Filter

set_option autoImplicit false

/-! # Collecting events

A collector keeps the records of the events that its filter lets through. An event belongs to the
span that is open, if that span was let through itself. With traces on, the collector also notes
when spans begin and end, and each event between them.
-/

namespace Formula

/-- Something to be logged, with named data. -/
structure LogEntry where
  level : Level
  target : String
  message : String
  fields : List (String × Document)

/-- What a collector keeps of an event. -/
structure Record where
  level : Level
  message : String
  span : Option String
  fields : List (String × Document)

/-- The phases of a trace. -/
inductive Phase where
  | spanBegin
  | spanEnd
  | instant
  deriving Repr, DecidableEq

/-- The letter of a phase. -/
def Phase.letter : Phase → String
  | .spanBegin => "B"
  | .spanEnd => "E"
  | .instant => "i"

/-- A note in a trace. -/
structure Trace where
  phase : Phase
  name : String
  fields : List (String × Document)

/-- The records and traces of a program under a filter. -/
structure Collector where
  filter : Filter
  tracing : Bool
  span : Option String := none
  records : Array Record := #[]
  traces : Array Trace := #[]

namespace Collector

/-- Adds to the trace if there is one. -/
def trace (c : Collector) (note : Trace) : Collector :=
  if c.tracing then { c with traces := c.traces.push note } else c

/-- Begins a span, if the filter keeps it. -/
def enter (c : Collector) (name : String) (level : Level) (target : String) : Collector :=
  if c.filter.keeps level target then { c with span := some name }.trace ⟨.spanBegin, name, []⟩
  else c

/-- Ends the span that is open. -/
def leave (c : Collector) : Collector :=
  match c.span with
  | some name => { c with span := none }.trace ⟨.spanEnd, name, []⟩
  | none => c

/-- Logs something, if the filter keeps it. -/
def log (c : Collector) (e : LogEntry) : Collector :=
  if c.filter.keeps e.level e.target then
    { c with records := c.records.push ⟨e.level, e.message, c.span, e.fields⟩ }.trace
      ⟨.instant, e.message, e.fields⟩
  else c

/-- Logs an event of a part of the program, which is named in its fields. -/
def logEvent (elapsed : String) (c : Collector) (event : Event) : Collector :=
  c.log ⟨event.level, event.target, event.message elapsed, [("log.target", .string event.target)]⟩

end Collector

end Formula
