import Interlock.Json.Decode
import Interlock.Time.Spelled

/-!
The times a coordinator works with, and their written form. Specification, section 10.4:
Configuration.
-/
namespace Interlock.Coordinator

/-- The period of the evaluation loops and the time limits of vendor commands and store calls. -/
structure Settings where
  evaluationPeriod : Time.Duration := .ofSeconds 2
  commandTimeout : Time.Duration := .ofSeconds 5
  storageTimeout : Time.Duration := .ofSeconds 2
  deriving DecidableEq, Repr, Inhabited

namespace Settings

/-- A duration spelled with units. -/
def duration : Json.Decoder Time.Duration := fun v => do
  let s ← Json.Decoder.text v
  match Time.Duration.ofSpelled s with
  | .ok d => return d
  | .error .malformed => throw (.invalid "expected a duration")
  | .error .overrun => throw .overrun

/-- Settings in their written form; each one left out has its default, and no other is known. -/
def decode (format : Json.Format := .json) : Json.Decoder Settings := fun v => do
  let ms ← v.members
    [⟨"evaluation_period", true⟩, ⟨"command_timeout", true⟩, ⟨"storage_timeout", true⟩] true
    format.spareItems
  let d : Settings := {}
  let period ← ms.orElse "evaluation_period" duration d.evaluationPeriod
  let commandTimeout ← ms.orElse "command_timeout" duration d.commandTimeout
  let storageTimeout ← ms.orElse "storage_timeout" duration d.storageTimeout
  return ⟨period, commandTimeout, storageTimeout⟩

def toJson (c : Settings) : Json.Value :=
  .object
    [("evaluation_period", .text c.evaluationPeriod.spelled),
      ("command_timeout", .text c.commandTimeout.spelled),
      ("storage_timeout", .text c.storageTimeout.spelled)]

end Settings

end Interlock.Coordinator
