import SqlBuilder.Number.Binary64

/-!
# Shortest decimal digits

The decimal number with the fewest digits that reads back as a given double.
The numbers that round to a double form an interval around it, whose ends
belong to it when the significand is even. For one, two, … up to seventeen
digits the two neighbours of the double on that decimal grid are tested against
the interval; the first grid with a hit wins, and of two hits the nearer one.
-/

namespace SqlBuilder

/-- Which of two equally near neighbours is taken. -/
inductive HalfWay where
  /-- The greater one. -/
  | up
  /-- The one whose last digit is even. -/
  | even
  deriving DecidableEq

namespace Finite64

/-- The magnitude in units of two to the -1074. -/
def units (x : Finite64) : Nat := x.significand * Nat.pow 2 x.scale

/-- How many units make one. -/
def unitsPerOne : Nat := Nat.pow 2 1074

/-- Four times the distance, in units, down to the lower end of the interval of
numbers that round to `x`: half the gap below it, which is smaller where the
scale changes. -/
def reachDown (x : Finite64) : Nat :=
  if x.significand = Nat.pow 2 52 ∧ x.scale ≠ 0 then Nat.pow 2 x.scale
  else 2 * Nat.pow 2 x.scale

/-- Four times the distance, in units, up to the upper end of the interval of
numbers that round to `x`. -/
def reachUp (x : Finite64) : Nat := 2 * Nat.pow 2 x.scale

/-- The power of ten of the first decimal digit of a positive quotient. -/
def leadingExponent (num den : Nat) : Int :=
  if den ≤ num then Decimal.width (num / den) - 1
  else -(Decimal.width ((den + num - 1) / num - 1))

/-- Whether the number `c * step / scaled` of a decimal grid reads back as `x`,
where `scaled` is the factor that takes units to the grid. -/
def readsBack (x : Finite64) (c step scaled : Nat) : Bool :=
  let lower := (4 * x.units - x.reachDown) * scaled
  let upper := (4 * x.units + x.reachUp) * scaled
  let point := 4 * c * step
  if x.significand % 2 = 0 then lower ≤ point && point ≤ upper
  else lower < point && point < upper

/-- The nearest number that reads back as `x` among its two neighbours on the
grid with `places` digits, if one of them does; `lead` is the power of ten of
the first digit of `x`. -/
def onGrid? (x : Finite64) (tie : HalfWay) (lead : Int) (places : Nat) : Option Decimal :=
  -- One step of the grid is ten to `exponent`; both it and the number itself are
  -- scaled by `scaled`, so that all that follows is in natural numbers.
  let exponent := lead - (places - 1 : Nat)
  let step := unitsPerOne * Nat.pow 10 exponent.toNat
  let scaled := Nat.pow 10 (-exponent).toNat
  let num := x.units * scaled
  let below := num / step
  let twice := 2 * (num % step)
  let upward := step < twice ∨ (twice = step ∧ (tie = .up ∨ below % 2 = 1))
  let chosen := match x.readsBack below step scaled, x.readsBack (below + 1) step scaled with
    | true, true => some (if upward then below + 1 else below)
    | true, false => some below
    | false, true => some (below + 1)
    | false, false => none
  -- Nine rounded up to ten has one digit again. With more places it ends in a
  -- nought, and then a shorter grid has had a hit.
  chosen.map fun c => if c = 10 then ⟨1, exponent + 1⟩ else ⟨c, exponent⟩

/-- The decimal number with the fewest digits that reads back as the magnitude
of `x`. -/
def shortest (x : Finite64) (tie : HalfWay) : Decimal :=
  if x.significand = 0 then ⟨0, 0⟩
  else
    let lead := leadingExponent x.units unitsPerOne
    -- Seventeen digits tell all doubles apart, so one of the grids has a hit.
    ((List.range 17).findSome? fun n => x.onGrid? tie lead (n + 1)).getD
      ⟨x.units, 0⟩

end Finite64

end SqlBuilder
