import Interlock.Time.Instant
import Interlock.Text.Blank

/-!
Instants as RFC 3339 text. Printing uses `Z` and the shortest of no, three, six or nine fraction
digits that loses nothing; a year outside 0 to 9999 carries its sign. Reading is relaxed: blanks
before every number and around every separator, single digits, any offset, and a leap second.
-/
namespace Interlock.Time

/-- A number padded with zeros in front to at least the given width. -/
def padded (width n : Nat) : List Char :=
  let ds := Nat.toDigits 10 n
  List.replicate (width - ds.length) '0' ++ ds

/-- The text of a year: four digits, and a sign outside 0 to 9999. -/
def yearChars (year : Int) : List Char :=
  if year < 0 then '-' :: padded 4 year.natAbs
  else if year ≤ 9999 then padded 4 year.natAbs
  else '+' :: padded 4 year.natAbs

/-- The fraction of a second: the shortest of 0, 3, 6 and 9 digits that is exact. -/
def fractionChars (nanos : Nat) : List Char :=
  if nanos == 0 then []
  else if nanos % 1000000 == 0 then '.' :: padded 3 (nanos / 1000000)
  else if nanos % 1000 == 0 then '.' :: padded 6 (nanos / 1000)
  else '.' :: padded 9 nanos

namespace Instant

/-- The characters of an instant. -/
def chars (t : Instant) : List Char :=
  let d := t.date
  let s := t.secondOfDay
  let leap := 1000000000 ≤ t.nanos
  let second := if leap then s % 60 + 1 else s % 60
  let nanos := if leap then t.nanos - 1000000000 else t.nanos
  yearChars d.year ++ '-' :: padded 2 d.month ++ '-' :: padded 2 d.day ++
    'T' :: padded 2 (s / 3600) ++ ':' :: padded 2 (s / 60 % 60) ++ ':' :: padded 2 second ++
    fractionChars nanos ++ ['Z']

/-- The text of an instant. -/
def display (t : Instant) : String := String.ofList t.chars

end Instant

/-- Why a text is no instant. -/
inductive InstantFault where
  | tooShort | invalid | outOfRange | impossible | tooLong
  deriving DecidableEq, Repr

/-- The wording of a fault. -/
def InstantFault.message : InstantFault → String
  | .tooShort => "premature end of input"
  | .invalid => "input contains invalid characters"
  | .outOfRange => "input is out of range"
  | .impossible => "no possible date and time matching input"
  | .tooLong => "trailing input"

/-- A number of one up to the given count of digits. -/
def readDigits (most : Nat) (cs : List Char) : Except InstantFault (Nat × List Char) :=
  match cs, (cs.take most).takeWhile Char.isDigit with
  | [], _ => .error .tooShort
  | _, [] => .error .invalid
  | _, ds => .ok (ds.foldl (fun n c => n * 10 + (c.toNat - '0'.toNat)) 0, cs.drop ds.length)

/-- The value, if it lies between two bounds. -/
def within (low high n : Nat) : Except InstantFault Nat :=
  if low ≤ n ∧ n ≤ high then .ok n else .error .outOfRange

/-- A year: up to four digits, or a sign and any number of digits; it has to fit 32 bits. -/
def readYear (cs : List Char) : Except InstantFault (Int × List Char) :=
  let signed := fun (sign : Int) (rest : List Char) => do
    let (n, rest') ← readDigits rest.length rest
    let year := sign * (n : Int)
    if -0x80000000 ≤ year ∧ year < 0x80000000 then return (year, rest') else throw .outOfRange
  match Text.skipBlank cs with
  | '-' :: rest => signed (-1) rest
  | '+' :: rest => signed 1 rest
  | rest => (readDigits 4 rest).map fun (n, rest') => ((n : Int), rest')

/-- A number of one or two digits between two bounds, with blanks in front. -/
def readTwo (low high : Nat) (cs : List Char) : Except InstantFault (Nat × List Char) := do
  let (n, rest) ← readDigits 2 (Text.skipBlank cs)
  return (← within low high n, rest)

/-- A separator with blanks in front. -/
def readMark (mark : Char) (cs : List Char) : Except InstantFault (List Char) :=
  match Text.skipBlank cs with
  | c :: rest => if c == mark then .ok rest else .error .invalid
  | [] => .error .tooShort

/-- The mark between a date and a time: a letter of either case, or one space. -/
def readTimeMark (cs : List Char) : Except InstantFault (List Char) :=
  match cs with
  | c :: rest => if c == 'T' || c == 't' || c == ' ' then .ok rest else .error .invalid
  | [] => .error .tooShort

/-- An optional fraction of a second in nanoseconds; digits after the ninth are dropped. -/
def readFraction (cs : List Char) : Except InstantFault (Nat × List Char) :=
  match cs with
  | '.' :: rest => do
    let ds := (rest.take 9).takeWhile Char.isDigit
    let (n, rest') ← readDigits 9 rest
    return (n * Nat.pow 10 (9 - ds.length), rest'.dropWhile Char.isDigit)
  | rest => .ok (0, rest)

/-- Two digits in a row. Where they are missing, it matters whether two bytes are left at all. -/
def readPair (cs : List Char) : Except InstantFault ((Nat × Nat) × List Char) :=
  match cs with
  | a :: b :: rest =>
    if a.isDigit && b.isDigit then
      .ok ((a.toNat - '0'.toNat, b.toNat - '0'.toNat), rest)
    else .error .invalid
  | [c] => .error (if c.utf8Size < 2 then .tooShort else .invalid)
  | [] => .error .tooShort

/-- An offset from universal time behind its sign, in seconds: two digits for the hours, any colons
or blanks, and two digits for the minutes. -/
def readOffsetDigits (cs : List Char) : Except InstantFault (Nat × List Char) := do
  let ((a, b), rest) ← readPair cs
  let ((c, d), rest) ← readPair (rest.dropWhile fun c => c == ':' || Text.isBlank c)
  if c ≤ 5 then return ((a * 10 + b) * 3600 + (c * 10 + d) * 60, rest) else throw .outOfRange

/-- An offset from universal time in seconds: `Z`, `UTC`, or a sign and digits. -/
def readOffset (cs : List Char) : Except InstantFault (Int × List Char) :=
  let signed := fun (sign : Int) (rest : List Char) =>
    (readOffsetDigits rest).map fun (n, rest) => (sign * (n : Int), rest)
  match cs with
  | [] => .error .tooShort
  | '+' :: rest => signed 1 rest
  | '-' :: rest | '\u2212' :: rest => signed (-1) rest
  | 'Z' :: rest | 'z' :: rest => .ok (0, rest)
  | a :: b :: c :: rest =>
    if (a == 'U' || a == 'u') && (b == 'T' || b == 't') && (c == 'C' || c == 'c') then .ok (0, rest)
    else .error .invalid
  | _ => .error .invalid

/-- Read an instant from characters. Every number is checked when it is read; whether the date is
real, the offset less than a day, and the instant within its bounds is asked at the end. -/
def Instant.ofChars (cs : List Char) : Except InstantFault Instant := do
  let (year, cs) ← readYear cs
  let (month, cs) ← readTwo 1 12 (← readMark '-' cs)
  let (day, cs) ← readTwo 1 31 (← readMark '-' cs)
  let (hour, cs) ← readTwo 0 23 (← readTimeMark cs)
  let (minute, cs) ← readTwo 0 59 (← readMark ':' cs)
  let (second, cs) ← readTwo 0 60 (← readMark ':' cs)
  let (nanos, cs) ← readFraction cs
  let (offset, cs) ← readOffset (Text.skipBlank cs)
  if !(Text.skipBlank cs).isEmpty then throw .tooLong
  let date : Date := ⟨year, month, day⟩
  let seconds := date.toDay * 86400 + ((hour * 3600 + minute * 60 + min second 59 : Nat) : Int)
  let clock : Instant := ⟨seconds, if second == 60 then nanos + 1000000000 else nanos⟩
  if !date.isReal || !clock.inRange || 86400 ≤ offset.natAbs then throw .outOfRange
  let t : Instant := ⟨seconds - offset, clock.nanos⟩
  if t.inRange then return t else throw .impossible

/-- Read an instant. -/
def Instant.ofText (s : String) : Except InstantFault Instant := Instant.ofChars s.toList

/-- The instant in a text, if there is one. -/
def Instant.ofText? (s : String) : Option Instant := (Instant.ofText s).toOption

end Interlock.Time
