import Interlock.Time.Calendar

/-!
Instants of universal time with nanoseconds. A leap second is the second before it held longer: its
nanoseconds run on from `10 ^ 9`. Instants are bounded, and moving one out of the bounds fails.
-/
namespace Interlock.Time

/-- Seconds since 1970-01-01T00:00:00Z and nanoseconds, which reach `2 * 10 ^ 9` in leap seconds. -/
structure Instant where
  seconds : Int
  nanos : Nat
  deriving DecidableEq, Repr, Inhabited

/-- A length of time: seconds and below `10 ^ 9` nanoseconds. -/
structure Duration where
  seconds : Nat
  nanos : Nat
  deriving DecidableEq, Repr, Inhabited

namespace Duration

def zero : Duration := ⟨0, 0⟩

def ofSeconds (n : Nat) : Duration := ⟨n, 0⟩

def ofMillis (n : Nat) : Duration := ⟨n / 1000, n % 1000 * 1000000⟩

/-- Seconds and any number of nanoseconds, if the whole seconds among them still fit 64 bits. -/
def ofParts? (seconds nanos : Nat) : Option Duration :=
  if seconds + nanos / 1000000000 < UInt64.size then
    some ⟨seconds + nanos / 1000000000, nanos % 1000000000⟩
  else none

/-- The whole milliseconds of a duration. -/
def toMillis (d : Duration) : Nat := d.seconds * 1000 + d.nanos / 1000000

/-- A duration in nanoseconds. -/
def toNanos (d : Duration) : Nat := d.seconds * 1000000000 + d.nanos

/-- A decimal fraction of at most the given number of digits, trailing zeros dropped, after a point;
nothing for zero. -/
def fraction (width n : Nat) : String :=
  let padded := (List.replicate (width - (Nat.toDigits 10 n).length) '0') ++ Nat.toDigits 10 n
  let kept := (padded.reverse.dropWhile (· == '0')).reverse
  if kept.isEmpty then "" else String.ofList ('.' :: kept)

/-- The text of a duration in the largest unit that counts at least one, with a fraction. -/
def display (d : Duration) : String :=
  if 0 < d.seconds then toString d.seconds ++ fraction 9 d.nanos ++ "s"
  else if 1000000 ≤ d.nanos then
    toString (d.nanos / 1000000) ++ fraction 6 (d.nanos % 1000000) ++ "ms"
  else if 1000 ≤ d.nanos then
    toString (d.nanos / 1000) ++ fraction 3 (d.nanos % 1000) ++ "µs"
  else toString d.nanos ++ "ns"

end Duration

namespace Instant

/-- The first second of the year -262143. -/
def minSeconds : Int := Date.toDay ⟨-262143, 1, 1⟩ * 86400

/-- The last second of the year 262142. -/
def maxSeconds : Int := (Date.toDay ⟨262142, 12, 31⟩ + 1) * 86400 - 1

/-- Whether the instant lies within the bounds. -/
def inRange (t : Instant) : Bool :=
  minSeconds ≤ t.seconds && t.seconds ≤ maxSeconds

/-- Microseconds since 1970, rounded down; a leap second counts on. -/
def micros (t : Instant) : Int := t.seconds * 1000000 + t.nanos / 1000

/-- The instant a number of microseconds after the start of 1970, if it lies within the bounds. -/
def ofMicros? (n : Int) : Option Instant :=
  let t : Instant := ⟨Int.fdiv n 1000000, (Int.fmod n 1000000).toNat * 1000⟩
  if t.inRange then some t else none

/-- A later instant, if it lies within the bounds. Whoever leaves a leap second has passed it by;
whoever adds less than is left of it stays in it. -/
def add? (t : Instant) (d : Duration) : Option Instant :=
  let result : Instant :=
    if 1000000000 ≤ t.nanos && d.seconds == 0 && t.nanos + d.nanos < 2000000000 then
      ⟨t.seconds, t.nanos + d.nanos⟩
    else
      let nanos := (if 1000000000 ≤ t.nanos then t.nanos - 1000000000 else t.nanos) + d.nanos
      ⟨t.seconds + d.seconds + nanos / 1000000000, nanos % 1000000000⟩
  if result.inRange then some result else none

/-- The date the instant falls on. -/
def date (t : Instant) : Date := Date.ofDay (Int.fdiv t.seconds 86400)

/-- The seconds since midnight. -/
def secondOfDay (t : Instant) : Nat := (Int.fmod t.seconds 86400).toNat

end Instant

end Interlock.Time
