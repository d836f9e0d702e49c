/-!
Doubles in decimal: the fewest digits that still read back as the same double, and of those the
closest to it. The reals that round to a double form an interval, and powers of ten are tried from
the largest down: the first that has a multiple in the interval gives the digits.
-/
namespace Interlock.Decimal

/-- The reals that round to a positive double, as multiples of a power of two: the double itself,
and the ends halfway to its neighbours, which round to it only if its significand is even. -/
structure Span where
  low : Nat
  middle : Nat
  high : Nat
  exponent : Int
  closed : Bool
  deriving DecidableEq, Repr

/-- The span of the positive finite double with some bits. Below a power of two the next double is
half as far away as above, except at the bottom. -/
def Span.ofBits (bits : Nat) : Span :=
  let field := bits / 0x10000000000000 % 0x800
  let fraction := bits % 0x10000000000000
  let significand := if field = 0 then fraction else fraction + 0x10000000000000
  let below := if fraction = 0 ∧ 1 < field then 1 else 2
  ⟨4 * significand - below, 4 * significand, 4 * significand + 2,
    (max field 1 : Nat) - 1077, significand % 2 = 0⟩

/-- A whole number of units of a power of ten. -/
structure Digits where
  count : Nat
  exponent : Int
  deriving DecidableEq, Repr

/-- A span in units of a power of ten, all numbers times the denominator that comes second. -/
def Span.inUnits (s : Span) (exponent : Int) : Span × Nat :=
  let up := Nat.pow 2 s.exponent.toNat * Nat.pow 10 (-exponent).toNat
  let down := Nat.pow 2 (-s.exponent).toNat * Nat.pow 10 exponent.toNat
  ({ s with low := s.low * up, middle := s.middle * up, high := s.high * up }, down)

/-- Whether a number, times the denominator, lies in a span. -/
def Span.contains (s : Span) (n : Nat) : Bool :=
  if s.closed then s.low ≤ n && n ≤ s.high else s.low < n && n < s.high

/-- The multiple of a power of ten in a span that is closest to its double, if there is one. It is
one of the two neighbours of the double; if they are equally close, the even one. -/
def Span.multiple? (s : Span) (exponent : Int) : Option Nat :=
  let (t, d) := s.inUnits exponent
  let below := t.middle / d
  match t.contains (below * d), t.contains ((below + 1) * d) with
  | true, false => some below
  | false, true => some (below + 1)
  | false, false => none
  | true, true =>
    let twice := 2 * t.middle
    let sum := (2 * below + 1) * d
    if twice < sum ∨ (twice = sum ∧ below % 2 = 0) then some below else some (below + 1)

/-- The digits in a span, from a power of ten downwards, as many as are tried. -/
def Span.search (s : Span) : Nat → Int → Digits
  | 0, exponent => ⟨0, exponent⟩
  | tries + 1, exponent =>
    match s.multiple? exponent with
    | some n => ⟨n, exponent⟩
    | none => s.search tries (exponent - 1)

/-- The fewest digits of the positive finite double with some bits: doubles lie below `10 ^ 309`,
and the least of them needs no digit behind the place `-324`. -/
def shortest (bits : Nat) : Digits := (Span.ofBits bits).search 650 309

/-- Digits in writing: with a point where the first digit stands between the places -5 and 15, else
with one digit before the point and a power of ten that always has its sign. -/
def Digits.chars (d : Digits) : List Char :=
  let ds := Nat.toDigits 10 d.count
  let place : Int := ds.length - 1 + d.exponent
  if -5 ≤ place ∧ place ≤ 15 then
    if place < 0 then '0' :: '.' :: (List.replicate (-place - 1).toNat '0' ++ ds)
    else
      let padded := ds ++ List.replicate d.exponent.toNat '0'
      match padded.drop (place.toNat + 1) with
      | [] => padded ++ ['.', '0']
      | behind => padded.take (place.toNat + 1) ++ '.' :: behind
  else
    ds.take 1 ++ (if ds.length = 1 then [] else '.' :: ds.drop 1) ++
      'e' :: (if place < 0 then '-' else '+') :: Nat.toDigits 10 place.natAbs

/-- The text of a finite double. -/
def display (f : Float) : String :=
  let bits := f.toBits.toNat
  let magnitude := bits % 0x8000000000000000
  let digits := if magnitude = 0 then ['0', '.', '0'] else (shortest magnitude).chars
  String.ofList (if bits = magnitude then digits else '-' :: digits)

end Interlock.Decimal
