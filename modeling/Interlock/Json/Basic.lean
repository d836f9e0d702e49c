/-!
Syntax trees of JSON texts. A number keeps its digits, because how large it is and whether it is an
integer is asked only where it is read as one. A text literal whose escapes name a lone surrogate
is well formed and yet no text: it stands as `unreadable`, which only a skipped field may hold.
-/
namespace Interlock.Json

/-- A number literal, digit by digit. -/
structure Number where
  negative : Bool
  whole : List Char
  fraction : Option (List Char)
  /-- Whether the exponent is negative, and its digits. -/
  exponent : Option (Bool × List Char)
  deriving DecidableEq, Repr

/-- A JSON value. The members of an object stand in the order of the text, repetitions included. -/
inductive Value where
  | null
  | bool (b : Bool)
  | number (n : Number)
  | text (s : String)
  | unreadable
  | array (items : List Value)
  | object (members : List (String × Value))
  deriving Repr, Inhabited

/-- The decimal digits of a natural number. -/
def digitsOf (n : Nat) : List Char := Nat.toDigits 10 n

/-- The number a run of decimal digits denotes. -/
def ofDigits (ds : List Char) : Nat := ds.foldl (fun n c => n * 10 + (c.toNat - '0'.toNat)) 0

namespace Number

/-- The literal of a natural number. -/
def ofNat (n : Nat) : Number := ⟨false, digitsOf n, none, none⟩

/-- Whether the literal is written without fraction and exponent. -/
def isInteger (n : Number) : Bool := n.fraction.isNone && n.exponent.isNone

/-- The value of an unsigned integer literal that fits 64 bits. A minus sign, a fraction or an
exponent makes it no such literal, also where the value would be whole. -/
def toWord? (n : Number) : Option Nat :=
  if n.negative || !n.isInteger then none
  else
    let v := ofDigits n.whole
    if v < UInt64.size then some v else none

end Number

namespace Value

/-- The literal of a natural number, as a value. -/
def nat (n : Nat) : Value := .number (.ofNat n)

/-- An optional text; nothing is `null`. -/
def optional : Option String → Value
  | none => .null
  | some s => .text s

end Value

end Interlock.Json
