import Interlock.Json.Basic

/-!
Number literals as binary floating point. A literal is a significand of at most 64 bits and a power
of ten: digits that no longer fit are dropped and counted in the exponent. The significand is
rounded to a double and then scaled by one multiplication or division per 308 powers of ten.
-/
namespace Interlock.Json.Number

/-- A significand below `2 ^ 64`, the power of ten to scale it by, and whether digits have been
dropped already. -/
structure Scaled where
  significand : Nat := 0
  exponent : Int := 0
  full : Bool := false

/-- One more digit in front of the point. -/
def Scaled.pushWhole (s : Scaled) (c : Char) : Scaled :=
  let next := s.significand * 10 + (c.toNat - '0'.toNat)
  if s.full || UInt64.size ≤ next then { s with exponent := s.exponent + 1, full := true }
  else { s with significand := next }

/-- One more digit behind the point. -/
def Scaled.pushFraction (s : Scaled) (c : Char) : Scaled :=
  let next := s.significand * 10 + (c.toNat - '0'.toNat)
  if s.full || UInt64.size ≤ next then { s with full := true }
  else { s with significand := next, exponent := s.exponent - 1 }

/-- The digits of a literal as a significand and a power of ten, its exponent left aside. -/
def digits (n : Number) : Scaled :=
  let whole := n.whole.foldl Scaled.pushWhole {}
  (n.fraction.getD []).foldl Scaled.pushFraction { whole with full := false }

/-- A power of ten as a double, up to `10 ^ 308`. -/
def tenTo (n : Nat) : Float := Float.ofScientific 1 false n

/-- Divide by a power of ten, `10 ^ 308` at a time; four steps reach zero from any significand. -/
def divideDown : Nat → Float → Nat → Float
  | 0, f, _ => f
  | k + 1, f, n =>
    if n ≤ 308 then f / tenTo n else if f == 0.0 then f else divideDown k (f / tenTo 308) (n - 308)

/-- A significand times a power of ten, if the result is finite. -/
def scale (f : Float) (exponent : Int) : Option Float :=
  if exponent < 0 then some (divideDown 4 f exponent.natAbs)
  else if exponent ≤ 308 then
    let r := f * tenTo exponent.toNat
    if r.isInf then none else some r
  else if f == 0.0 then some f
  else none

/-- The magnitude of a literal, if it is finite. -/
def magnitude? (n : Number) : Option Float :=
  let s := n.digits
  let f := s.significand.toUInt64.toFloat
  match n.exponent with
  | none => scale f s.exponent
  | some (down, ds) =>
    let e := ofDigits ds
    if 0x80000000 ≤ e then if s.significand == 0 || down then some 0.0 else none
    else scale f (if down then s.exponent - e else s.exponent + e)

/-- The literal as a double, if its magnitude is finite. -/
def toFloat? (n : Number) : Option Float :=
  n.magnitude?.map fun f => if n.negative then -f else f

/-- The literal as a single: an integer of 64 bits is rounded once, anything else by way of the
double. -/
def toFloat32? (n : Number) : Option Float32 :=
  let v := ofDigits n.whole
  if n.isInteger && !n.negative && v < UInt64.size then some v.toUInt64.toFloat32
  else if n.isInteger && n.negative && 0 < v && v ≤ 0x8000000000000000 then
    some (-v.toUInt64.toFloat32)
  else n.toFloat?.map Float.toFloat32

end Interlock.Json.Number
