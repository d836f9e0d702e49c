/-!
Characters by number: ranges of them, and the numbers that escapes write with a fixed number of
hexadecimal digits of either case.
-/
namespace Interlock.Text

/-- Whether a code point lies in one of the ranges. -/
def inRanges (ranges : List (Nat × Nat)) (n : Nat) : Bool :=
  ranges.any fun r => r.1 ≤ n && n ≤ r.2

/-- The value of a hexadecimal digit of either case. -/
def hexValue? (c : Char) : Option Nat :=
  if '0' ≤ c ∧ c ≤ '9' then some (c.toNat - '0'.toNat)
  else if 'a' ≤ c ∧ c ≤ 'f' then some (c.toNat - 'a'.toNat + 10)
  else if 'A' ≤ c ∧ c ≤ 'F' then some (c.toNat - 'A'.toNat + 10)
  else none

/-- The character of a number; surrogates and what lies beyond the last plane are none. -/
def scalar? (n : Nat) : Option Char :=
  if n < 0xd800 ∨ (0xdfff < n ∧ n < 0x110000) then some (Char.ofNat n) else none

/-- Read a number of hexadecimal digits, with what is left behind them. -/
def readHex : Nat → Nat → List Char → Option (Nat × List Char)
  | 0, value, cs => some (value, cs)
  | n + 1, value, c :: rest => do readHex n (value * 16 + (← hexValue? c)) rest
  | _ + 1, _, [] => none

/-- Read the character that a number of hexadecimal digits stands for. -/
def readCodePoint (digits : Nat) (cs : List Char) : Option (Char × List Char) := do
  let (n, rest) ← readHex digits 0 cs
  return (← scalar? n, rest)

end Interlock.Text
