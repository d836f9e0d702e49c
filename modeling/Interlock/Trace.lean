/-!
Events that a program reports while it runs, and the spans they stand in. A program only names what
it reports; whoever runs it keeps or drops the events. Specification, section 10.2: Logging.
-/
namespace Interlock.Trace

/-- How much an event matters. -/
inductive Level where
  | trace | debug | info | warn | error
  deriving DecidableEq, Repr

/-- The written name of a level. -/
def Level.name : Level → String
  | .trace => "TRACE"
  | .debug => "DEBUG"
  | .info => "INFO"
  | .warn => "WARN"
  | .error => "ERROR"

/-- The value of a field of an event. -/
inductive FieldValue where
  | text (s : String)
  | number (n : Nat)
  | flag (b : Bool)
  deriving DecidableEq, Repr

/-- Named values, in the order they are reported. -/
abbrev Fields := List (String × FieldValue)

/-- A stretch of a program with a name and values of its own. -/
structure Span where
  name : String
  fields : Fields
  deriving DecidableEq, Repr

/-- Something worth reporting. -/
structure Event where
  level : Level
  message : String
  fields : Fields
  deriving DecidableEq, Repr

/-- An event with the innermost span it happened in. -/
structure Entry where
  event : Event
  span : Option Span
  deriving DecidableEq, Repr

/-- What a program says without waiting for an answer. -/
inductive Note where
  | event (e : Event)
  | enter (s : Span)
  | leave
  deriving DecidableEq, Repr

/-- The spans a program is in after a note, the innermost first. -/
def Note.spans (n : Note) (stack : List Span) : List Span :=
  match n with
  | .event _ => stack
  | .enter s => s :: stack
  | .leave => stack.tail

/-- The entry a note leaves in a log, if it is an event. -/
def Note.entry? (n : Note) (stack : List Span) : Option Entry :=
  match n with
  | .event e => some ⟨e, stack.head?⟩
  | _ => none

end Interlock.Trace
