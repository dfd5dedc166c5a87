import SlotTable.Key.Binary64

/-!
# The shortest decimal that reads back

A finite binary64 magnitude is `significand * 2 ^ exponent`. The numbers that round to it form an
interval, closed when the significand is even. `shortest` takes the coarsest decimal grid with a
point in that interval and, of two such points, the nearer one; a tie goes up. `Decimal.debugText`
then decides between positional and scientific notation.
-/
namespace SlotTable

/-- The number `digits * 10 ^ exponent`. -/
structure Decimal where
  digits : Nat
  exponent : Int
  deriving DecidableEq, Repr

/-- A positive fraction, not necessarily in lowest terms. -/
structure Fraction where
  numerator : Nat
  denominator : Nat
  deriving DecidableEq, Repr

namespace Fraction

/-- The number `n * base ^ exponent`. -/
def scaled (n base : Nat) (exponent : Int) : Fraction :=
  ⟨n * Nat.pow base exponent.toNat, Nat.pow base (-exponent).toNat⟩

def times (a b : Fraction) : Fraction :=
  ⟨a.numerator * b.numerator, a.denominator * b.denominator⟩

end Fraction

/-- A binary magnitude with the distances to the ends of its rounding interval, all in units of
`2 ^ exponent`. -/
structure Rounding where
  centre : Nat
  below : Nat
  above : Nat
  exponent : Int
  closed : Bool
  deriving DecidableEq, Repr

namespace Rounding

/-- The interval of a finite magnitude. At the lowest significand of an exponent the neighbour
below is half as far as the one above. -/
def ofBinary64 (x : Binary64) : Rounding :=
  let significand := if x.exponentField = 0 then x.fraction else 0x10000000000000 + x.fraction
  let narrow := x.fraction = 0 && 1 < x.exponentField
  { centre := 4 * significand
    below := if narrow then 1 else 2
    above := 2
    exponent := (max x.exponentField 1 : Nat) - 1077
    closed := significand % 2 = 0 }

/-- Whether a grid point lies in the interval; `grid` is the size of one unit in grid steps. -/
def holds (r : Rounding) (grid : Fraction) (point : Nat) : Bool :=
  let here := point * grid.denominator
  let low := (r.centre - r.below) * grid.numerator
  let high := (r.centre + r.above) * grid.numerator
  if r.closed then low ≤ here && here ≤ high else low < here && here < high

/-- The points of the grid `10 ^ exponent` beside the centre that lie in the interval: none, one,
or the nearer of two. -/
def onGrid? (r : Rounding) (exponent : Int) : Option Decimal :=
  let grid := (Fraction.scaled 1 2 r.exponent).times (Fraction.scaled 1 10 (-exponent))
  let lower := r.centre * grid.numerator / grid.denominator
  let past := 2 * (r.centre * grid.numerator - lower * grid.denominator)
  match r.holds grid lower, r.holds grid (lower + 1) with
  | false, false => none
  | true, false => some ⟨lower, exponent⟩
  | false, true => some ⟨lower + 1, exponent⟩
  | true, true => some ⟨if past < grid.denominator then lower else lower + 1, exponent⟩

/-- The exponents of all grids that a finite magnitude can need, the coarsest first. -/
def gridExponents : List Int :=
  (List.range 634).map fun (step : Nat) => 309 - (step : Int)

def shortest (r : Rounding) : Decimal :=
  (gridExponents.findSome? r.onGrid?).getD ⟨0, 0⟩

end Rounding

namespace Decimal

/-- Whole digits, a point, and at least one digit after it. -/
def positional (digits : List Char) (exponent : Int) : List Char :=
  if 0 ≤ exponent then
    digits ++ List.replicate exponent.toNat '0' ++ ['.', '0']
  else
    let places := (-exponent).toNat
    let padded := List.replicate (places + 1 - digits.length) '0' ++ digits
    padded.take (padded.length - places) ++ '.' :: padded.drop (padded.length - places)

/-- One digit, a point if more digits follow, and the exponent. -/
def scientific (digits : List Char) (exponent : Int) : List Char :=
  let power := (toString (exponent + (digits.length - 1 : Nat))).toList
  match digits with
  | [] => []
  | [digit] => digit :: 'e' :: power
  | digit :: more => digit :: '.' :: more ++ 'e' :: power

/-- Positional from 10^-4 up to, but not including, 10^16; scientific elsewhere. -/
def debugText (d : Decimal) : String :=
  let digits := Nat.toDigits 10 d.digits
  let leading := d.exponent + (digits.length - 1 : Nat)
  String.ofList <|
    if -4 ≤ leading ∧ leading < 16 then positional digits d.exponent
    else scientific digits d.exponent

end Decimal

namespace Binary64

def debugText (x : Binary64) : String :=
  if x.isNaN then "NaN"
  else
    let sign := if x.isNegative then "-" else ""
    if x.isInfinite then sign ++ "inf"
    else if x.isZero then sign ++ "0.0"
    else sign ++ (Rounding.ofBinary64 x).shortest.debugText

end Binary64

end SlotTable
