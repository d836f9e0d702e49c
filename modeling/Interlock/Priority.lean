import Interlock.Time.Instant

/-!
Priority tokens order the waiters of a space: the smaller token goes first. A minter hands them out
from a clock so that each is larger than all before it, also when the clock stands still or goes
back. Specification, section 4.2: Priority Queue.
-/
namespace Interlock

/-- A priority token. -/
structure Priority where
  value : UInt64
  deriving DecidableEq, Repr, Inhabited

namespace Priority

instance : Ord Priority := ⟨compareOn Priority.value⟩

instance : Std.TransOrd Priority := inferInstanceAs (Std.TransCmp (compareOn Priority.value))

instance : Std.LawfulEqOrd Priority where
  eq_of_compare {a b} h := by
    cases a; cases b
    exact congrArg _ (Std.LawfulEqOrd.eq_of_compare (α := UInt64) h)

/-- The token as a plain number. -/
def toNat (p : Priority) : Nat := p.value.toNat

/-- The token of a number, taken modulo `2 ^ 64`. -/
def ofNat (n : Nat) : Priority := ⟨n.toUInt64⟩

/-- The decimal number. -/
def display (p : Priority) : String := String.ofList (Nat.toDigits 10 p.toNat)

/-- How many digits the written token has; every 64-bit number fits. -/
def tokenWidth : Nat := 20

/-- The characters of the written token: the decimal number with zeros in front, so that the order
of the texts is the order of the numbers. -/
def tokenChars (p : Priority) : List Char :=
  let ds := Nat.toDigits 10 p.toNat
  List.replicate (tokenWidth - ds.length) '0' ++ ds

/-- The written token. -/
def token (p : Priority) : String := String.ofList p.tokenChars

/-- The number a list of decimal digits denotes. -/
def digitsValue (ds : List Char) : Nat :=
  ds.foldl (fun n c => n * 10 + (c.toNat - '0'.toNat)) 0

/-- Read a token: one or more ASCII digits, of any count, with a value of 64 bits. -/
def ofTokenChars? (cs : List Char) : Option Priority :=
  if cs.isEmpty || !cs.all Char.isDigit then none
  else
    let n := digitsValue cs
    if n < UInt64.size then some (ofNat n) else none

/-- Read a token. -/
def ofToken? (s : String) : Option Priority := ofTokenChars? s.toList

end Priority

/-- The state of a minter: the last token it handed out, or zero. -/
structure Minter where
  last : UInt64 := 0
  deriving DecidableEq, Repr, Inhabited

namespace Minter

/-- The number above, or the largest number itself. -/
def successor (n : UInt64) : UInt64 := if n = 0xffffffffffffffff then n else n + 1

/-- A clock reading as a token: microseconds, and zero before 1970. -/
def reading (micros : Int) : UInt64 := micros.toNat.toUInt64

/-- The next token: the clock reading, or the number above the last token if that is larger. -/
def next (m : Minter) (micros : Int) : UInt64 := max (reading micros) (successor m.last)

/-- Hand out the next token. -/
def mint (m : Minter) (micros : Int) : Priority × Minter :=
  let t := m.next micros
  (⟨t⟩, ⟨t⟩)

end Minter

end Interlock
