import Interlock.Trace.Directive

/-!
Which events are kept. A filter is a list of directives; of those that apply to an event the one
that names the longest target decides, then one that asks for a field, and among equals the last.
Without one that applies, nothing is kept. Specification, section 10.2: Logging.
-/
namespace Interlock.Trace

/-- Directives in the order in which they were given. -/
abbrev Filter := List Directive

namespace Filter

/-- The filter that keeps all from a level on. -/
def ofLevel (l : Level) : Filter := [{ threshold := some l }]

/-- A filter from directives between commas; empty ones are skipped. -/
def ofText? (s : String) : Option Filter :=
  ((s.splitOn ",").filter (!·.isEmpty)).mapM Directive.ofText?

/-- The more detailed of two directives, the second among equals. -/
def choose (best : Option Directive) (d : Directive) : Option Directive :=
  match best with
  | none => some d
  | some b =>
    if d.detail.1 < b.detail.1 ∨ (d.detail.1 = b.detail.1 ∧ d.detail.2 < b.detail.2) then some b
    else some d

/-- Whether an event of a target that has certain fields and stands in no span is kept. -/
def keeps (f : Filter) (target : String) (fields : List String) (l : Level) : Bool :=
  match (f.filter (·.appliesTo target fields)).foldl choose none with
  | some d => d.threshold.keeps l
  | none => false

end Filter

end Interlock.Trace
