import Interlock.Time.Instant
import Interlock.Text.Blank

/-!
Durations spelled with units, such as `1h 30m`. Reading takes groups of a number and a unit, with
blanks anywhere between and inside numbers; a fraction has to come out exact in nanoseconds, or in
seconds for the units from an hour on. Printing uses each unit at most once, the largest first.
-/
namespace Interlock.Time

/-- A unit of time: how many it counts of what it is made of. The small units are made of
nanoseconds, those from a second on of whole seconds. -/
inductive TimeUnit where
  | nanos (count : Nat)
  | seconds (count : Nat)
  deriving DecidableEq, Repr

namespace TimeUnit

/-- The units by name. -/
def ofName? : String → Option TimeUnit
  | "nanos" | "nsec" | "ns" => some (.nanos 1)
  | "usec" | "us" | "µs" => some (.nanos 1000)
  | "millis" | "msec" | "ms" => some (.nanos 1000000)
  | "seconds" | "second" | "secs" | "sec" | "s" => some (.seconds 1)
  | "minutes" | "minute" | "min" | "mins" | "m" => some (.seconds 60)
  | "hours" | "hour" | "hr" | "hrs" | "h" => some (.seconds 3600)
  | "days" | "day" | "d" => some (.seconds 86400)
  | "weeks" | "week" | "wk" | "wks" | "w" => some (.seconds 604800)
  | "months" | "month" | "M" => some (.seconds 2630016)
  | "years" | "year" | "yrs" | "yr" | "y" => some (.seconds 31557600)
  | _ => none

/-- What parts of the unit are counted in: nothing is smaller than a nanosecond, units up to a
minute have parts in nanoseconds, and greater units in seconds. -/
def parts? : TimeUnit → Option TimeUnit
  | .nanos 1 => none
  | .nanos k => some (.nanos k)
  | .seconds k => some (if k ≤ 60 then .nanos (k * 1000000000) else .seconds k)

end TimeUnit

/-- Why a spelled duration cannot be read: it is not well formed or too long, or a sum leaves its
range where nothing guards it. -/
inductive SpelledFault where
  | malformed
  | overrun
  deriving DecidableEq, Repr

/-- The value, if it fits 64 bits. -/
def fits64 (n : Nat) : Except SpelledFault Nat :=
  if n < UInt64.size then .ok n else .error .malformed

/-- Add seconds and nanoseconds to a duration. Every sum is guarded but one: exactly a second's
worth of nanoseconds is not carried before the seconds are checked. -/
def Duration.plus (d : Duration) (seconds nanos : Nat) : Except SpelledFault Duration := do
  let nanos ← fits64 (d.nanos + nanos)
  let carried := if nanos = 1000000000 then 0 else nanos / 1000000000
  let seconds ← fits64 (d.seconds + (← fits64 (seconds + carried)))
  match Duration.ofParts? seconds (nanos - carried * 1000000000) with
  | some d => return d
  | none => throw .overrun

/-- Add a number of units to a duration. -/
def Duration.plusCount (d : Duration) (n : Nat) : TimeUnit → Except SpelledFault Duration
  | .seconds k => do d.plus (← fits64 (n * k)) 0
  | .nanos k => do d.plus 0 (← fits64 (n * k))

/-- A fraction: its digits as a number, and the power of ten they are parts of. -/
structure Fraction where
  numerator : Nat
  denominator : Nat
  deriving DecidableEq, Repr

/-- Add a fraction of a unit to a duration; it has to come out exact. -/
def Duration.plusFraction (d : Duration) (f : Fraction) (u : TimeUnit) :
    Except SpelledFault Duration := do
  match u.parts? with
  | none => throw .malformed
  | some (.seconds k) =>
    let m ← fits64 (f.numerator * k)
    if m % f.denominator = 0 then d.plus (m / f.denominator) 0 else throw .malformed
  | some (.nanos k) =>
    let m ← fits64 (f.numerator * k)
    if m % f.denominator = 0 then d.plus 0 (m / f.denominator) else throw .malformed

/-- Where the reader stands: before a number, in its whole part, in its fraction, or in a unit. -/
inductive SpelledStage where
  | gap
  | whole (n : Nat)
  | fraction (n : Nat) (digits : Nat) (parts : Nat)
  | unit (n : Nat) (f : Option Fraction) (reversed : List Char)
  deriving DecidableEq, Repr

/-- The letters a unit may be made of. -/
def isUnitLetter (c : Char) : Bool := c.isAlpha || c == 'µ'

/-- The value of a decimal digit. -/
def digitValue (c : Char) : Nat := c.toNat - '0'.toNat

/-- Close the unit being read: add the whole number of units, then the fraction. -/
def closeUnit (d : Duration) (n : Nat) (f : Option Fraction) (reversed : List Char) :
    Except SpelledFault Duration := do
  match TimeUnit.ofName? (String.ofList reversed.reverse) with
  | none => throw .malformed
  | some u =>
    let d ← d.plusCount n u
    match f with
    | none => return d
    | some f => d.plusFraction f u

/-- Read the groups from a stage on, behind the duration read so far. -/
def readSpelled (d : Duration) : SpelledStage → List Char → Except SpelledFault Duration
  | .gap, [] => .ok d
  | .whole _, [] | .fraction .., [] => .error .malformed
  | .unit n f r, [] => closeUnit d n f r
  | .gap, c :: cs =>
    if c.isDigit then readSpelled d (.whole (digitValue c)) cs
    else if Text.isBlank c then readSpelled d .gap cs
    else .error .malformed
  | .whole n, c :: cs =>
    if c.isDigit then
      match fits64 (n * 10 + digitValue c) with
      | .ok n => readSpelled d (.whole n) cs
      | .error e => .error e
    else if Text.isBlank c then readSpelled d (.whole n) cs
    else if isUnitLetter c then readSpelled d (.unit n none [c]) cs
    else if c == '.' then readSpelled d (.fraction n 0 1) cs
    else .error .malformed
  | .fraction n m p, c :: cs =>
    if c.isDigit then
      match fits64 (m * 10 + digitValue c), fits64 (p * 10) with
      | .ok m, .ok p => readSpelled d (.fraction n m p) cs
      | .error e, _ | _, .error e => .error e
    else if Text.isBlank c then readSpelled d (.fraction n m p) cs
    else if isUnitLetter c && p != 1 then readSpelled d (.unit n (some ⟨m, p⟩) [c]) cs
    else .error .malformed
  | .unit n f r, c :: cs =>
    if c.isDigit then
      match closeUnit d n f r with
      | .ok d => readSpelled d (.whole (digitValue c)) cs
      | .error e => .error e
    else if Text.isBlank c then
      match closeUnit d n f r with
      | .ok d => readSpelled d .gap cs
      | .error e => .error e
    else if isUnitLetter c then readSpelled d (.unit n f (c :: r)) cs
    else .error .malformed

/-- Read a spelled duration. The single digit `0` needs no unit, and an empty text is none. -/
def Duration.ofSpelled (s : String) : Except SpelledFault Duration :=
  if s == "0" then .ok .zero
  else if Text.blank s then .error .malformed
  else readSpelled .zero .gap s.toList

/-- The groups of a spelled duration: each count that is not zero with its unit, which takes an `s`
behind the calendar units when the count is not one. -/
def Duration.groups (d : Duration) : List String :=
  let plural := fun (n : Nat) (unit : String) =>
    if n == 0 then [] else [toString n ++ unit ++ (if n == 1 then "" else "s")]
  let plain := fun (n : Nat) (unit : String) => if n == 0 then [] else [toString n ++ unit]
  let rest := d.seconds % 31557600
  let days := rest % 2630016
  let clock := days % 86400
  plural (d.seconds / 31557600) "year" ++ plural (rest / 2630016) "month" ++
    plural (days / 86400) "day" ++ plain (clock / 3600) "h" ++ plain (clock / 60 % 60) "m" ++
    plain (clock % 60) "s" ++ plain (d.nanos / 1000000) "ms" ++
    plain (d.nanos / 1000 % 1000) "us" ++ plain (d.nanos % 1000) "ns"

/-- The spelled text of a duration. -/
def Duration.spelled (d : Duration) : String :=
  if d.groups.isEmpty then "0s" else " ".intercalate d.groups

end Interlock.Time
